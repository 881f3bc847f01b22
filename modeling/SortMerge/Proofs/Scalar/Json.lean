import SortMerge.Proofs.Json.Meaning
import SortMerge.Scalar

set_option autoImplicit false

/-! # Scalars that read back from JSON

A scalar that is no float is read back as it was, whether or not its document is held
(`ofDoc?_meaning_toJson`), and nothing in its JSON is unclear. -/

namespace SortMerge.Scalar

/-- Whether the scalar is of one of the two floating-point kinds. -/
def isFloat : Scalar → Bool
  | .float32 _ => true
  | .float64 _ => true
  | _ => false

theorem kind?_name (k : Kind) : kind? (.text k.name) = some k := by
  cases k <;> rfl

/-! ## Contents -/

/-- A signed integer of at most 64 bits is read at its own width. -/
theorem signed?_meaning_ofInt {bits : Nat} (hbits : bits ≤ 63) {i : Int}
    (hlo : -((1 <<< bits : Nat) : Int) ≤ i) (hhi : i < ((1 <<< bits : Nat) : Int)) :
    signed? (bits + 1) (Json.ofInt i).meaning = some i := by
  have hbound : 1 <<< bits ≤ 1 <<< 63 := by
    rw [Nat.one_shiftLeft, Nat.one_shiftLeft]
    exact Nat.pow_le_pow_right (by decide) hbits
  rw [signed?, Json.ofInt, Json.meaning, Nat.add_sub_cancel]
  exact Json.int?_docOfNumeral_ofInt (by omega) (by omega) (by omega)

theorem byte?_meaning_ofNat (b : UInt8) : byte? (Json.ofNat b.toNat).meaning = some b := by
  have hlt : b.toNat < 256 := b.toNat_lt
  have hsize : b.toNat < UInt64.size := Nat.lt_trans hlt (by decide)
  have hrange : (0 : Int) ≤ b.toNat ∧ (b.toNat : Int) ≤ ((1 <<< 8 : Nat) : Int) - 1 := by
    have : 1 <<< 8 = 256 := rfl
    omega
  rw [byte?, Doc.nat?, Json.ofNat, Json.meaning, Json.docOfNumeral_ofNat hsize, Doc.int?,
    if_pos hrange]
  simp

/-- Read as its own kind, the content of a scalar gives the scalar. -/
theorem ofContent?_meaning_contentJson (held : Bool) {v : Scalar} (h : v.isFloat = false) :
    ofContent? held v.contentJson.meaning v.kind = some v := by
  cases v with
  | null | bool _ | text _ => rfl
  | int16 i =>
      have hlo := i.le_toInt
      have hhi := i.toInt_lt
      have hread : signed? 16 (Json.ofInt i.toInt).meaning = some i.toInt :=
        signed?_meaning_ofInt (by decide) (by omega) (by omega)
      rw [contentJson, kind, ofContent?, hread, Option.map_some, Int16.ofInt_toInt]
  | int32 i =>
      have hlo := i.le_toInt
      have hhi := i.toInt_lt
      have hread : signed? 32 (Json.ofInt i.toInt).meaning = some i.toInt :=
        signed?_meaning_ofInt (by decide) (by omega) (by omega)
      rw [contentJson, kind, ofContent?, hread, Option.map_some, Int32.ofInt_toInt]
  | int64 i | timestamp i =>
      have hlo := i.le_toInt
      have hhi := i.toInt_lt
      have hread : signed? 64 (Json.ofInt i.toInt).meaning = some i.toInt :=
        signed?_meaning_ofInt (by decide) (by omega) (by omega)
      rw [contentJson, kind, ofContent?, hread, Option.map_some, Int64.ofInt_toInt]
  | float32 _ | float64 _ => exact absurd h (by simp [isFloat])
  | binary bs =>
      have hread :
          ((bs.map fun b => Json.ofNat b.toNat).map Json.meaning).mapM byte? = some bs := by
        have hbytes := mapM_map_eq_some fun b (_ : b ∈ bs) => byte?_meaning_ofNat b
        rw [List.map_map]
        rwa [List.map_id'] at hbytes
      rw [contentJson, kind, ofContent?, Json.meaning_array, Doc.list?, Option.bind_some, hread,
        Option.map_some]

theorem isClear_contentJson {v : Scalar} (h : v.isFloat = false) : v.contentJson.IsClear := by
  cases v with
  | null => exact .null
  | bool b => exact .bool b
  | text s => exact .text s
  | int16 i | int32 i | int64 i | timestamp i =>
      have hlo := i.le_toInt
      have hhi := i.toInt_lt
      exact Json.isClear_ofInt (by omega) (by omega)
  | float32 _ | float64 _ => exact absurd h (by simp [isFloat])
  | binary bs =>
      refine .array fun j hj => ?_
      obtain ⟨b, -, rfl⟩ := List.mem_map.1 hj
      exact Json.isClear_ofNat (Nat.lt_trans b.toNat_lt (by decide))

/-! ## Whole scalars -/

theorem toJson_eq_record {v : Scalar} (h : v ≠ .null) :
    v.toJson = .record [(v.kind.name, v.contentJson)] := by
  cases v with
  | null => exact absurd rfl h
  | _ => rfl

/-- A scalar that is no float is read back as it was. -/
theorem ofDoc?_meaning_toJson (held : Bool) {v : Scalar} (h : v.isFloat = false) :
    ofDoc? held v.toJson.meaning = some v := by
  by_cases hnull : v = .null
  · rw [hnull]
    rfl
  · rw [toJson_eq_record hnull, Json.meaning_record, ofDoc?]
    simp only [List.map_cons, List.map_nil, Doc.choice?, kind?_name, Option.bind_some]
    exact ofContent?_meaning_contentJson held h

theorem isClear_toJson {v : Scalar} (h : v.isFloat = false) : v.toJson.IsClear := by
  by_cases hnull : v = .null
  · rw [hnull]
    exact .text _
  · rw [toJson_eq_record hnull]
    refine Json.writtenWith_record fun m hm => ?_
    rw [List.mem_singleton.1 hm]
    exact isClear_contentJson h

end SortMerge.Scalar

import SortMerge.Proofs.Floating.Layout
import SortMerge.Proofs.Scalar.Json

set_option autoImplicit false

/-! # What the JSON of a scalar tells

JSON has no infinities and nothing that is no number, so floats that are not finite are all written
as null. This is all that is lost: two scalars have the same JSON exactly if they are the same once
their floats that are not finite are blurred into one (`toJson_blurred`, `blurred_eq_of_toJson`). -/

namespace SortMerge

/-! ## Numbers and records -/

namespace Json

theorem ofNat_inj {m n : Nat} (h : ofNat m = ofNat n) : m = n := by
  rw [ofNat, ofNat, number.injEq] at h
  exact congrArg Numeral.whole h

theorem ofString_inj {s t : String} (h : ofString s = ofString t) : s = t := by
  rw [ofString, ofString, text.injEq] at h
  exact Option.some.inj h

theorem record_inj {ms ns : List (String × Json)} (h : record ms = record ns) : ms = ns := by
  rw [record, record, object.injEq] at h
  refine List.map_injective_iff.2 (fun m n hmn => ?_) h
  rw [Prod.mk.injEq, Option.some.injEq] at hmn
  exact Prod.ext hmn.1 hmn.2

end Json

namespace Scalar

section Number

open Floating

variable {f : Format} (hf : f.IsDecimal)
include hf

/-- The JSON of a word tells the word, unless it is not finite. -/
theorem numberJson_eq_iff {v w : Nat} (hv : v < 2 * f.signBit) (hw : w < 2 * f.signBit) :
    numberJson f v = numberJson f w ↔ v = w ∨ f.isFinite v = false ∧ f.isFinite w = false := by
  rw [← jsonLayout.numeral_decode_eq_iff hf hv hw, numberJson, numberJson]
  cases jsonLayout.numeral f (f.decode v) <;> cases jsonLayout.numeral f (f.decode w) <;> simp

theorem writtenWith_numberJson (word : Nat) :
    (numberJson f word).WrittenWith Numeral.IsSpelled := by
  rw [numberJson]
  cases hfinite : f.isFinite word with
  | false =>
      rw [jsonLayout.numeral_of_not_isFinite hfinite]
      exact .null
  | true =>
      obtain ⟨n, hn, -, hspelled⟩ := jsonLayout.tells_numeral hf hfinite
      rw [hn]
      exact .number hspelled

end Number

/-- True of everything but floats that are infinite or no number. -/
def isFinite : Scalar → Bool
  | .float32 w => Floating.binary32.isFinite w.toNat
  | .float64 w => Floating.binary64.isFinite w.toNat
  | _ => true

/-- The scalar, or the plain word that is no number in the place of a float that is not finite. -/
def blurred : Scalar → Scalar
  | .float32 w => .float32 (if Floating.binary32.isFinite w.toNat then w else 0x7fc00000)
  | .float64 w => .float64 (if Floating.binary64.isFinite w.toNat then w else 0x7ff8000000000000)
  | v => v

theorem blurred_of_isFinite {v : Scalar} (h : v.isFinite = true) : v.blurred = v := by
  cases v with
  | float32 w | float64 w => exact congrArg _ (if_pos h)
  | _ => rfl

/-! ## Blurring does not show -/

theorem contentJson_blurred (v : Scalar) : v.blurred.contentJson = v.contentJson := by
  cases v with
  | float32 w =>
      cases hfinite : Floating.binary32.isFinite w.toNat with
      | true => rw [blurred, if_pos hfinite]
      | false =>
          rw [blurred, if_neg (Bool.eq_false_iff.1 hfinite), contentJson, contentJson,
            numberJson_eq_iff Floating.Format.isDecimal_binary32 (by decide) w.toNat_lt]
          exact .inr ⟨by decide, hfinite⟩
  | float64 w =>
      cases hfinite : Floating.binary64.isFinite w.toNat with
      | true => rw [blurred, if_pos hfinite]
      | false =>
          rw [blurred, if_neg (Bool.eq_false_iff.1 hfinite), contentJson, contentJson,
            numberJson_eq_iff Floating.Format.isDecimal_binary64 (by decide) w.toNat_lt]
          exact .inr ⟨by decide, hfinite⟩
  | _ => rfl

theorem toJson_blurred (v : Scalar) : v.blurred.toJson = v.toJson := by
  cases v with
  | float32 w =>
      exact congrArg (fun c => Json.record [(Kind.float32.name, c)])
        (contentJson_blurred (.float32 w))
  | float64 w =>
      exact congrArg (fun c => Json.record [(Kind.float64.name, c)])
        (contentJson_blurred (.float64 w))
  | _ => rfl

/-! ## Everything else does -/

/-- The JSON of a scalar names its kind. -/
theorem choice?_meaning_toJson (v : Scalar) :
    (v.toJson.meaning.choice?.bind fun c => kind? c.1) = some v.kind := by
  by_cases hnull : v = .null
  · rw [hnull]
    rfl
  · rw [toJson_eq_record hnull, Json.meaning_record]
    simp only [List.map_cons, List.map_nil, Doc.choice?, Option.bind_some, kind?_name]

theorem kind_eq_of_toJson {v w : Scalar} (h : v.toJson = w.toJson) : v.kind = w.kind := by
  have hkind := choice?_meaning_toJson v
  rw [h, choice?_meaning_toJson w, Option.some.injEq] at hkind
  exact hkind.symm

theorem contentJson_eq_of_toJson {v w : Scalar} (hv : v ≠ .null) (hw : w ≠ .null)
    (h : v.toJson = w.toJson) : v.contentJson = w.contentJson := by
  rw [toJson_eq_record hv, toJson_eq_record hw] at h
  have hmembers := Json.record_inj h
  rw [List.cons.injEq, Prod.mk.injEq] at hmembers
  exact hmembers.1.2

theorem isFloat_eq (v : Scalar) :
    v.isFloat = (v.kind == .float32 || v.kind == .float64) := by
  cases v <;> rfl

theorem blurred_float32_eq {a b : UInt32}
    (h : (float32 a).contentJson = (float32 b).contentJson) :
    (float32 a).blurred = (float32 b).blurred := by
  rw [contentJson, contentJson,
    numberJson_eq_iff Floating.Format.isDecimal_binary32 a.toNat_lt b.toNat_lt] at h
  rcases h with heq | ⟨ha, hb⟩
  · rw [UInt32.toNat_inj.1 heq]
  · simp [blurred, ha, hb]

theorem blurred_float64_eq {a b : UInt64}
    (h : (float64 a).contentJson = (float64 b).contentJson) :
    (float64 a).blurred = (float64 b).blurred := by
  rw [contentJson, contentJson,
    numberJson_eq_iff Floating.Format.isDecimal_binary64 a.toNat_lt b.toNat_lt] at h
  rcases h with heq | ⟨ha, hb⟩
  · rw [UInt64.toNat_inj.1 heq]
  · simp [blurred, ha, hb]

/-- Scalars with the same JSON are the same, blurred. -/
theorem blurred_eq_of_toJson {v w : Scalar} (h : v.toJson = w.toJson) : v.blurred = w.blurred := by
  have hkind := kind_eq_of_toJson h
  cases hfloat : v.isFloat with
  | false =>
      -- a scalar that is no float can be read back
      have hfloat' : w.isFloat = false := by rw [isFloat_eq, ← hkind, ← isFloat_eq, hfloat]
      have hread := ofDoc?_meaning_toJson false hfloat
      rw [h, ofDoc?_meaning_toJson false hfloat', Option.some.injEq] at hread
      rw [hread]
  | true =>
      cases v with
      | float32 a =>
          cases w with
          | float32 b => exact blurred_float32_eq (contentJson_eq_of_toJson (by simp) (by simp) h)
          | _ => cases hkind
      | float64 a =>
          cases w with
          | float64 b => exact blurred_float64_eq (contentJson_eq_of_toJson (by simp) (by simp) h)
          | _ => cases hkind
      | _ => cases hfloat

/-! ## What is written can be scanned -/

theorem writtenWith_contentJson (v : Scalar) :
    v.contentJson.WrittenWith Numeral.IsSpelled := by
  cases v with
  | null => exact .null
  | bool b => exact .bool b
  | int16 i | int32 i | int64 i | timestamp i => exact .number (Numeral.isSpelled_ofInt _)
  | float32 w => exact writtenWith_numberJson Floating.Format.isDecimal_binary32 _
  | float64 w => exact writtenWith_numberJson Floating.Format.isDecimal_binary64 _
  | text s => exact .text s
  | binary bs =>
      exact .array (List.forall_mem_map.2 fun b _ => .number (Numeral.isSpelled_ofNat b.toNat))

theorem writtenWith_toJson (v : Scalar) : v.toJson.WrittenWith Numeral.IsSpelled := by
  by_cases hnull : v = .null
  · rw [hnull]
    exact .text _
  · rw [toJson_eq_record hnull]
    refine Json.writtenWith_record fun m hm => ?_
    rw [List.mem_singleton.1 hm]
    exact writtenWith_contentJson v

end Scalar

end SortMerge

import SortMerge.External
import SortMerge.Proofs.Scalar.Bytes

set_option autoImplicit false

/-! # Scalars that come back from data

A scalar belongs to a type tag if it is null or one of the values that the type has: an integer or a
time under the tag of its width, a double, or a content of bounded length under a tag of text, as
text if it is UTF-8 and as bytes if not. These are exactly the scalars that come back when they are
written as data and read again under the tag. Whatever data are read under a tag, misshapen ones
included, the scalar belongs to the tag, so a second exchange changes nothing any more. -/

namespace SortMerge

/-! ## Integers -/

/-- Dropping the bits that were put in front of a word leaves the word. -/
theorem setWidth_signExtend {n m : Nat} (x : BitVec n) (h : n ≤ m) :
    (x.signExtend m).setWidth n = x := by
  refine BitVec.eq_of_getLsbD_eq fun i hi => ?_
  have him : i < m := Nat.lt_of_lt_of_le hi h
  rw [BitVec.getLsbD_setWidth, BitVec.getLsbD_signExtend]
  simp [hi, him]

theorem toInt16_of_widened (v : Int16) : v.toInt64.toUInt64.toUInt16.toInt16 = v := by
  have hword : (v.toBitVec.signExtend 64).setWidth 16 = v.toBitVec :=
    setWidth_signExtend v.toBitVec (by decide)
  exact Int16.toBitVec.inj hword

theorem toInt32_of_widened (v : Int32) : v.toInt64.toUInt64.toUInt32.toInt32 = v := by
  have hword : (v.toBitVec.signExtend 64).setWidth 32 = v.toBitVec :=
    setWidth_signExtend v.toBitVec (by decide)
  exact Int32.toBitVec.inj hword

/-! ## Contents -/

namespace Datum

/-- Contents below this length fit a buffer, because the header counts itself. -/
def contentLimit : Nat := 1 <<< 32 - headerSize

theorem lt_contentLimit_iff {n : Nat} :
    n < contentLimit ↔ n + headerSize < LittleEndian.capacity headerSize := by
  have hlimit : contentLimit = 4294967292 := rfl
  have hcapacity : LittleEndian.capacity headerSize = 4294967296 := rfl
  rw [hlimit, hcapacity, headerSize]
  omega

theorem content?_ofContent {content : List UInt8} (h : content.length < contentLimit) :
    content? (LittleEndian.encode headerSize (content.length + headerSize) ++ content)
      = some content := by
  have hheader := LittleEndian.length_encode headerSize (content.length + headerSize)
  have htotal : LittleEndian.decode ((LittleEndian.encode headerSize
      (content.length + headerSize) ++ content).take headerSize) = content.length + headerSize := by
    rw [List.take_left' hheader, LittleEndian.decode_encode_of_lt (lt_contentLimit_iff.1 h)]
  have hlength : (LittleEndian.encode headerSize (content.length + headerSize) ++ content).length
      = content.length + headerSize := by
    rw [List.length_append, hheader, Nat.add_comm]
  have hfits : headerSize ≤ content.length + headerSize := Nat.le_add_left _ _
  simp only [content?, htotal, hlength, hfits, Nat.le_refl, and_self, if_true]
  rw [List.take_of_length_le (Nat.le_of_eq hlength), List.drop_left' hheader]

theorem length_of_content? {buffer content : List UInt8} (h : content? buffer = some content) :
    content.length < contentLimit := by
  have hlt := LittleEndian.decode_lt (buffer.take headerSize)
  simp only [content?] at h
  split at h
  · next hfits =>
      obtain ⟨hheader, htotal, hlength⟩ := hfits
      rw [List.length_take, Nat.min_eq_left hheader] at hlt
      cases h
      rw [lt_contentLimit_iff, List.length_drop, List.length_take, Nat.min_eq_left hlength,
        Nat.sub_add_cancel htotal]
      exact hlt
  · cases h

theorem toUTF8_of_fromUTF8? {content : List UInt8} {s : String}
    (h : String.fromUTF8? ⟨content.toArray⟩ = some s) : s.toUTF8.toList = content := by
  rw [String.fromUTF8?] at h
  split at h
  · cases h
    rw [Text.toList_eq]
    rfl
  · cases h

theorem scalarOfContent_toUTF8 (s : String) : scalarOfContent s.toUTF8.toList = .text s := by
  have hbytes : (⟨s.toUTF8.toList.toArray⟩ : ByteArray) = s.toUTF8 := by
    rw [Text.toList_eq, Array.toArray_toList]
  have hread : String.fromUTF8? s.toUTF8 = some s := by
    rw [String.fromUTF8?, String.toUTF8_eq_toByteArray, dif_pos s.isValidUTF8]
    rfl
  rw [scalarOfContent, hbytes, hread]

end Datum

/-! ## Scalars of a type -/

/-- The tags of a type. -/
def ExternalType.tags : ExternalType → List Nat
  | .bigint => [20]
  | .smallint => [21]
  | .integer => [23]
  | .text => [25, 1042, 1043]
  | .float8 => [701]
  | .timestamp => [1114]

theorem ExternalType.ofTag?_eq_some_iff {tag : Nat} {t : ExternalType} :
    ofTag? tag = some t ↔ tag ∈ t.tags := by
  constructor
  · intro h
    unfold ofTag? at h
    split at h <;> cases h <;> simp [tags]
  · intro h
    cases t <;> simp only [tags, List.mem_cons, List.not_mem_nil, or_false] at h
    case text => rcases h with rfl | rfl | rfl <;> rfl
    all_goals
      subst h
      rfl

namespace Scalar

/-- The scalar is one that the tag has data for. -/
def BelongsTo (tag : Nat) : Scalar → Prop
  | .null => True
  | .bool _ => False
  | .int16 _ => tag = 21
  | .int32 _ => tag = 23
  | .int64 _ => tag = 20
  | .float32 _ => False
  | .float64 _ => tag = 701
  | .text s => tag ∈ [25, 1042, 1043] ∧ s.toUTF8.toList.length < Datum.contentLimit
  | .binary bs =>
    tag ∈ [25, 1042, 1043] ∧ bs.length < Datum.contentLimit ∧ String.fromUTF8? ⟨bs.toArray⟩ = none
  | .timestamp _ => tag = 1114

end Scalar

namespace Datum

theorem toScalar_of_mem_tags {tag : Nat} {t : ExternalType} (h : tag ∈ t.tags) (d : Datum) :
    d.toScalar tag = d.toScalarOfType t := by
  rw [toScalar, ExternalType.ofTag?_eq_some_iff.2 h]

theorem toScalar_null (tag : Nat) : Datum.null.toScalar tag = .null := by
  rw [toScalar]
  cases ExternalType.ofTag? tag with
  | none => rfl
  | some t => cases t <;> rfl

/-- Under a tag of text, a content that fits a buffer comes back as the scalar it stands for. -/
theorem toScalar_ofContent {tag : Nat} (htag : tag ∈ [25, 1042, 1043]) {content : List UInt8}
    (h : content.length < contentLimit) :
    (ofContent content).toScalar tag = scalarOfContent content := by
  have htext : tag ∈ ExternalType.text.tags := htag
  rw [toScalar_of_mem_tags htext]
  simp only [ofContent, toScalarOfType, content?_ofContent h]

/-- A scalar that belongs to the tag comes back under it. -/
theorem toScalar_ofScalar {tag : Nat} {v : Scalar} (h : v.BelongsTo tag) :
    (ofScalar v).toScalar tag = v := by
  cases v with
  | null => exact toScalar_null tag
  | bool b | float32 w => exact h.elim
  | int16 i =>
      obtain rfl : tag = 21 := h
      exact congrArg Scalar.int16 (toInt16_of_widened i)
  | int32 i =>
      obtain rfl : tag = 23 := h
      exact congrArg Scalar.int32 (toInt32_of_widened i)
  | int64 i =>
      obtain rfl : tag = 20 := h
      rfl
  | float64 w =>
      obtain rfl : tag = 701 := h
      rfl
  | text s =>
      rw [ofScalar, toScalar_ofContent h.1 h.2, scalarOfContent_toUTF8]
  | binary bs =>
      rw [ofScalar, toScalar_ofContent h.1 h.2.1, scalarOfContent, h.2.2]
  | timestamp t =>
      obtain rfl : tag = 1114 := h
      rfl

theorem belongsTo_scalarOfContent {tag : Nat} (htag : tag ∈ [25, 1042, 1043])
    {content : List UInt8} (h : content.length < contentLimit) :
    (scalarOfContent content).BelongsTo tag := by
  rw [scalarOfContent]
  cases hread : String.fromUTF8? ⟨content.toArray⟩ with
  | none => exact ⟨htag, h, hread⟩
  | some s =>
      refine ⟨htag, ?_⟩
      rw [toUTF8_of_fromUTF8? hread]
      exact h

/-- What is read under a tag belongs to it, whatever the datum. -/
theorem belongsTo_toScalar (tag : Nat) (d : Datum) : (d.toScalar tag).BelongsTo tag := by
  rw [toScalar]
  cases ht : ExternalType.ofTag? tag with
  | none => trivial
  | some t =>
      have htag := ExternalType.ofTag?_eq_some_iff.1 ht
      dsimp only
      cases t with
      | text =>
          cases d with
          | buffer bytes =>
              rw [toScalarOfType]
              cases hread : content? bytes with
              | none => trivial
              | some content => exact belongsTo_scalarOfContent htag (length_of_content? hread)
          | word w | null => trivial
      | smallint | integer | bigint | float8 | timestamp =>
          cases d with
          | word w => exact List.mem_singleton.1 htag
          | buffer bytes | null => trivial

/-! ## Buffers -/

/-- The length in front of a buffer, a little-endian number of 32 bits. -/
def header? : List UInt8 → Option Nat
  | b₀ :: b₁ :: b₂ :: b₃ :: _ =>
    some (b₀.toNat + 256 * b₁.toNat + 65536 * b₂.toNat + 16777216 * b₃.toNat)
  | _ => none

theorem header?_eq (buffer : List UInt8) :
    header? buffer = if headerSize ≤ buffer.length then
      some (LittleEndian.decode (buffer.take headerSize)) else none := by
  match buffer with
  | [] | [_] | [_, _] | [_, _, _] => rfl
  | b₀ :: b₁ :: b₂ :: b₃ :: rest =>
      have hlength : headerSize ≤ (b₀ :: b₁ :: b₂ :: b₃ :: rest).length := by simp [headerSize]
      have htake : (b₀ :: b₁ :: b₂ :: b₃ :: rest).take headerSize = [b₀, b₁, b₂, b₃] := rfl
      rw [if_pos hlength, htake, header?, Option.some.injEq]
      simp only [LittleEndian.decode]
      omega

/-- The content of a buffer is what stands between its header and the length that the header says,
    if that is the length of a part of the buffer with the header in it. -/
theorem content?_eq_some_iff {buffer content : List UInt8} :
    content? buffer = some content ↔
      ∃ total, header? buffer = some total ∧ headerSize ≤ total ∧ total ≤ buffer.length ∧
        content = buffer.extract headerSize total := by
  rw [content?, header?_eq]
  generalize LittleEndian.decode (buffer.take headerSize) = total
  rw [List.drop_take]
  constructor
  · intro h
    split at h
    · next hfits =>
        cases h
        exact ⟨total, if_pos hfits.1, hfits.2.1, hfits.2.2, rfl⟩
    · cases h
  · rintro ⟨t, ht, hheader, hlength, rfl⟩
    rw [if_pos (Nat.le_trans hheader hlength), Option.some.injEq] at ht
    subst ht
    exact if_pos ⟨Nat.le_trans hheader hlength, hheader, hlength⟩

/-- A scalar comes back from its datum under a tag exactly if it belongs to the tag. Whatever datum
    is read under whatever tag, the scalar that it gives comes back. -/
theorem exchange_faithful :
    (∀ (tag : Nat) (v : Scalar), (ofScalar v).toScalar tag = v ↔ v.BelongsTo tag) ∧
      (∀ (tag : Nat) (d : Datum), (ofScalar (d.toScalar tag)).toScalar tag = d.toScalar tag) ∧
      ∀ buffer content : List UInt8, content? buffer = some content ↔
        ∃ total, header? buffer = some total ∧ 4 ≤ total ∧ total ≤ buffer.length ∧
          content = buffer.extract 4 total := by
  refine ⟨fun tag v => ⟨fun h => ?_, toScalar_ofScalar⟩,
    fun tag d => toScalar_ofScalar (belongsTo_toScalar tag d), fun _ _ => content?_eq_some_iff⟩
  rw [← h]
  exact belongsTo_toScalar tag (ofScalar v)

end Datum

end SortMerge

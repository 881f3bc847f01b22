import SortMerge.Proofs.Text
import SortMerge.Scalar

set_option autoImplicit false

/-! # Reading scalars back from bytes

Scalars are written one after another without separators. They can still be told apart: the first
byte says of which kind a scalar is, the kind says how wide the payload is, and texts and byte
strings start with their length. So the bytes of a scalar are never a proper beginning of the bytes
of another one, whatever follows. The same holds of lists of a known length of things that have this
property, which is how the parts of a tile are written. Where nothing follows the length need not be
known, because no scalar is written as no bytes (`bytes_determine`). -/

namespace SortMerge

/-! ## Encodings without separators -/

/-- What the encoding writes for one of the values can be read off the front of any byte string: if
    two strings start with values, they start with the same value and go on in the same way. -/
def PrefixFree {α : Type} (P : α → Prop) (f : α → List UInt8) : Prop :=
  ∀ ⦃a b⦄, P a → P b → ∀ ⦃s t⦄, f a ++ s = f b ++ t → a = b ∧ s = t

/-- Lists of a known length can be read off the front if their elements can. -/
theorem PrefixFree.flatMap {α : Type} {P : α → Prop} {f : α → List UInt8} (h : PrefixFree P f)
    (n : Nat) :
    PrefixFree (fun xs : List α => xs.length = n ∧ ∀ a ∈ xs, P a) (List.flatMap f) := by
  intro xs ys hx hy s t heq
  induction n generalizing xs ys with
  | zero =>
      rw [List.length_eq_zero_iff.1 hx.1, List.length_eq_zero_iff.1 hy.1] at heq ⊢
      exact ⟨rfl, heq⟩
  | succ n ih =>
      obtain ⟨x, xs, rfl⟩ := List.exists_cons_of_length_eq_add_one hx.1
      obtain ⟨y, ys, rfl⟩ := List.exists_cons_of_length_eq_add_one hy.1
      simp only [List.length_cons, Nat.add_right_cancel_iff, List.forall_mem_cons] at hx hy
      simp only [List.flatMap_cons, List.append_assoc] at heq
      obtain ⟨rfl, hrest⟩ := h hx.2.1 hy.2.1 heq
      obtain ⟨rfl, htail⟩ := ih ⟨hx.1, hx.2.2⟩ ⟨hy.1, hy.2.2⟩ hrest
      exact ⟨rfl, htail⟩

/-- If nothing is written as no bytes at all, lists of any lengths can be told apart. -/
theorem PrefixFree.flatMap_inj {α : Type} {P : α → Prop} {f : α → List UInt8} (h : PrefixFree P f)
    (hne : ∀ a, f a ≠ []) {xs ys : List α} (hx : ∀ a ∈ xs, P a) (hy : ∀ a ∈ ys, P a)
    (heq : xs.flatMap f = ys.flatMap f) : xs = ys := by
  induction xs generalizing ys with
  | nil =>
      cases ys with
      | nil => rfl
      | cons y ys => exact absurd (List.append_eq_nil_iff.1 heq.symm).1 (hne y)
  | cons x xs ih =>
      cases ys with
      | nil => exact absurd (List.append_eq_nil_iff.1 heq).1 (hne x)
      | cons y ys =>
          rw [List.forall_mem_cons] at hx hy
          obtain ⟨rfl, hrest⟩ := h hx.1 hy.1 heq
          rw [ih hx.2 hy.2 hrest]

/-- Numbers that fit so many bytes are read off the front. -/
theorem LittleEndian.encode_prefixFree (width : Nat) :
    PrefixFree (fun n => n < capacity width) (encode width) := by
  intro a b ha hb s t heq
  obtain ⟨hword, hrest⟩ := List.append_inj heq (by simp)
  exact ⟨encode_inj ha hb hword, hrest⟩

namespace Scalar

/-! ## Scalars -/

/-- A byte string behind its length is read off the front, if the length fits. -/
theorem lengthPrefixed_prefixFree :
    PrefixFree (fun bs => bs.length < LittleEndian.capacity 8) lengthPrefixed := by
  intro bs cs hbs hcs s t heq
  rw [lengthPrefixed, lengthPrefixed, List.append_assoc, List.append_assoc] at heq
  obtain ⟨hlength, hrest⟩ := LittleEndian.encode_prefixFree 8 hbs hcs heq
  exact List.append_inj hrest hlength

/-- The length of a text or a byte string fits into the word that is written for it. -/
def FitsWord : Scalar → Prop
  | .text s => s.toUTF8.toList.length < LittleEndian.capacity 8
  | .binary bs => bs.length < LittleEndian.capacity 8
  | _ => True

/-- Numbers of a type that fits the width are read off the front. -/
theorem prefixFree_of_toNat {α : Type} {width : Nat} {toNat : α → Nat}
    (hinj : ∀ a b, toNat a = toNat b → a = b) (hlt : ∀ a, toNat a < LittleEndian.capacity width) :
    PrefixFree (fun _ : α => True) (fun a => LittleEndian.encode width (toNat a)) := by
  intro a b _ _ s t heq
  obtain ⟨hnat, hrest⟩ := LittleEndian.encode_prefixFree width (hlt a) (hlt b) heq
  exact ⟨hinj a b hnat, hrest⟩

theorem int16_prefixFree :
    PrefixFree (fun _ : Int16 => True) (fun v => LittleEndian.encode 2 v.toUInt16.toNat) := by
  refine prefixFree_of_toNat (fun a b h => ?_) fun a => a.toUInt16.toNat_lt
  have hword : a.toUInt16 = b.toUInt16 := UInt16.toNat_inj.1 h
  cases a
  cases b
  exact congrArg Int16.ofUInt16 hword

theorem int32_prefixFree :
    PrefixFree (fun _ : Int32 => True) (fun v => LittleEndian.encode 4 v.toUInt32.toNat) := by
  refine prefixFree_of_toNat (fun a b h => ?_) fun a => a.toUInt32.toNat_lt
  have hword : a.toUInt32 = b.toUInt32 := UInt32.toNat_inj.1 h
  cases a
  cases b
  exact congrArg Int32.ofUInt32 hword

theorem int64_prefixFree :
    PrefixFree (fun _ : Int64 => True) (fun v => LittleEndian.encode 8 v.toUInt64.toNat) := by
  refine prefixFree_of_toNat (fun a b h => ?_) fun a => a.toUInt64.toNat_lt
  have hword : a.toUInt64 = b.toUInt64 := UInt64.toNat_inj.1 h
  cases a
  cases b
  exact congrArg Int64.ofUInt64 hword

theorem float32_prefixFree :
    PrefixFree (fun _ : UInt32 => True) (fun w => LittleEndian.encode 4 w.toNat) :=
  prefixFree_of_toNat (fun _ _ h => UInt32.toNat_inj.1 h) fun a => a.toNat_lt

theorem float64_prefixFree :
    PrefixFree (fun _ : UInt64 => True) (fun w => LittleEndian.encode 8 w.toNat) :=
  prefixFree_of_toNat (fun _ _ h => UInt64.toNat_inj.1 h) fun a => a.toNat_lt

/-- Payloads of scalars of one kind are read off the front. -/
theorem payload_append_inj {a b : Scalar} (hkind : a.kind = b.kind) (ha : a.FitsWord)
    (hb : b.FitsWord) {s t : List UInt8} (heq : a.payload ++ s = b.payload ++ t) :
    a = b ∧ s = t := by
  cases a with
  | null =>
      cases b <;> cases hkind
      exact ⟨rfl, heq⟩
  | bool v =>
      cases b <;> cases hkind
      next w => cases v <;> cases w <;> simp_all [payload]
  | int16 v =>
      cases b <;> cases hkind
      next w => exact (int16_prefixFree trivial trivial heq).imp_left (congrArg Scalar.int16)
  | int32 v =>
      cases b <;> cases hkind
      next w => exact (int32_prefixFree trivial trivial heq).imp_left (congrArg Scalar.int32)
  | int64 v =>
      cases b <;> cases hkind
      next w => exact (int64_prefixFree trivial trivial heq).imp_left (congrArg Scalar.int64)
  | float32 v =>
      cases b <;> cases hkind
      next w => exact (float32_prefixFree trivial trivial heq).imp_left (congrArg Scalar.float32)
  | float64 v =>
      cases b <;> cases hkind
      next w => exact (float64_prefixFree trivial trivial heq).imp_left (congrArg Scalar.float64)
  | text v =>
      cases b <;> cases hkind
      next w =>
        obtain ⟨hbytes, hrest⟩ := lengthPrefixed_prefixFree ha hb heq
        exact ⟨congrArg Scalar.text (Text.toUTF8_toList_inj hbytes), hrest⟩
  | binary v =>
      cases b <;> cases hkind
      next w => exact (lengthPrefixed_prefixFree ha hb heq).imp_left (congrArg Scalar.binary)
  | timestamp v =>
      cases b <;> cases hkind
      next w => exact (int64_prefixFree trivial trivial heq).imp_left (congrArg Scalar.timestamp)

/-- Scalars are read off the front: the kind by the first byte, and then the payload. -/
theorem bytes_prefixFree : PrefixFree FitsWord bytes := by
  intro a b ha hb s t heq
  rw [bytes, bytes, List.cons_append, List.cons_append, List.cons.injEq] at heq
  obtain ⟨hbyte, hpayload⟩ := heq
  have hrank : a.kind.rank = b.kind.rank := by
    have hnat := congrArg UInt8.toNat hbyte
    have hlt : ∀ k : Kind, k.rank < 256 := by
      intro k
      cases k <;> decide
    rwa [UInt8.toNat_ofNat_of_lt' (hlt _), UInt8.toNat_ofNat_of_lt' (hlt _)] at hnat
  exact payload_append_inj (Kind.rank_injective hrank) ha hb hpayload

/-- Two byte strings that start with the bytes of a scalar and are equal start with the same scalar
    and go on in the same way. So a number of scalars can be read off the front, and if nothing
    follows them their number need not be known. -/
theorem bytes_determine :
    (∀ a b : Scalar, a.FitsWord → b.FitsWord → ∀ s t : List UInt8,
        a.bytes ++ s = b.bytes ++ t → a = b ∧ s = t) ∧
      (∀ vs ws : List Scalar, (∀ v ∈ vs, v.FitsWord) → (∀ w ∈ ws, w.FitsWord) →
        vs.length = ws.length → ∀ s t : List UInt8,
          vs.flatMap bytes ++ s = ws.flatMap bytes ++ t → vs = ws ∧ s = t) ∧
      ∀ vs ws : List Scalar, (∀ v ∈ vs, v.FitsWord) → (∀ w ∈ ws, w.FitsWord) →
        vs.flatMap bytes = ws.flatMap bytes → vs = ws := by
  refine ⟨fun a b ha hb s t heq => ?_, fun vs ws hvs hws hlength s t heq => ?_,
    fun vs ws hvs hws heq => ?_⟩
  · exact bytes_prefixFree ha hb heq
  · exact bytes_prefixFree.flatMap ws.length ⟨hlength, hvs⟩ ⟨rfl, hws⟩ heq
  · exact bytes_prefixFree.flatMap_inj (fun v => List.cons_ne_nil _ _) hvs hws heq

namespace Example

/-- A number that wraps, a text of two bytes and no bytes at all. -/
def wrapped : List Scalar := [.int16 65535, .text "é", .binary []]

/-- The same scalars, with the number as it is read. -/
def unwrapped : List Scalar := [.int16 (-1), .text "é", .binary []]

theorem fitsWord_text : FitsWord (.text "é") := by
  rw [FitsWord, Text.toList_eq]
  decide

theorem fitsWord_empty : FitsWord (.binary []) := by
  rw [FitsWord]
  decide

end Example

/-- The wrapped number has the bytes of the other one, so it is the other one. -/
theorem bytes_determine_wrapped :
    (∀ v ∈ Example.wrapped, v.FitsWord) ∧ (∀ w ∈ Example.unwrapped, w.FitsWord) ∧
      Example.wrapped.flatMap bytes ++ [9] = Example.unwrapped.flatMap bytes ++ [9] ∧
      Example.wrapped = Example.unwrapped := by
  have hwrapped : ∀ v ∈ Example.wrapped, v.FitsWord := by
    simp only [Example.wrapped, List.forall_mem_cons]
    exact ⟨trivial, Example.fitsWord_text, Example.fitsWord_empty, by simp⟩
  have hunwrapped : ∀ w ∈ Example.unwrapped, w.FitsWord := by
    simp only [Example.unwrapped, List.forall_mem_cons]
    exact ⟨trivial, Example.fitsWord_text, Example.fitsWord_empty, by simp⟩
  have hbytes : bytes (.int16 65535) = bytes (.int16 (-1)) := by decide
  have heq : Example.wrapped.flatMap bytes ++ [9] = Example.unwrapped.flatMap bytes ++ [9] := by
    simp only [Example.wrapped, Example.unwrapped, List.flatMap_cons, hbytes]
  exact ⟨hwrapped, hunwrapped, heq, (bytes_determine.2.1 _ _ hwrapped hunwrapped rfl _ _ heq).1⟩

end Scalar

end SortMerge

import SortMerge.Numeral

set_option autoImplicit false

/-! # Numerals that read back

A numeral whose fraction holds digits only is spelled: writing it, with or without a sign before an
exponent that is not negative, and reading the text gives the same numeral, down to the digits of
its fraction and to whether it has an exponent (`ofChars?_chars`). Numerals of integers are
spelled. -/

namespace SortMerge.Numeral

/-- The fraction holds digits only. -/
def IsSpelled (n : Numeral) : Prop := ∀ c ∈ n.fraction, c.isDigit = true

theorem isSpelled_ofNat (n : Nat) : (ofNat n).IsSpelled := by
  simp [IsSpelled, ofNat]

theorem isSpelled_ofInt (i : Int) : (ofInt i).IsSpelled := by
  simp [IsSpelled, ofInt]

/-! ## Digits -/

theorem isDigit_of_mem_digits {n : Nat} {c : Char} (h : c ∈ digits n) : c.isDigit = true :=
  Nat.isDigit_of_mem_toDigits (by decide) (by decide) h

theorem digits_ne_nil (n : Nat) : digits n ≠ [] := Nat.toDigits_ne_nil

theorem natOfDigits_digits (n : Nat) : natOfDigits (digits n) = n := Nat.ofDigitChars_ten_toDigits

/-- Digits in front of something that starts with no digit are cut off exactly. -/
theorem spanDigits_append {ds rest : List Char} (hds : ∀ c ∈ ds, c.isDigit = true)
    (hrest : ∀ c ∈ rest.head?, c.isDigit = false) : spanDigits (ds ++ rest) = (ds, rest) := by
  have hnone : rest.takeWhile Char.isDigit = [] ∧ rest.dropWhile Char.isDigit = rest := by
    cases rest with
    | nil => exact ⟨rfl, rfl⟩
    | cons c cs =>
        have hc : c.isDigit = false := hrest c rfl
        simp [hc]
  rw [spanDigits, List.takeWhile_append_of_pos hds, List.dropWhile_append_of_pos hds, hnone.1,
    hnone.2, List.append_nil]

/-- Only zero is written with a zero in front. -/
theorem head?_digits_ne_zero {n : Nat} (h : 0 < n) : (digits n).head? ≠ some '0' := by
  induction n using Nat.strongRecOn with
  | ind n ih =>
      by_cases hten : 10 ≤ n
      · -- the last digit is not the first one
        have hfirst := ih (n / 10) (by omega) (by omega)
        have hne : digits (n / 10) ≠ [] := digits_ne_nil _
        rw [digits, Nat.toDigits_of_base_le (by decide) hten, ← digits]
        cases hd : digits (n / 10) with
        | nil => exact absurd hd hne
        | cons d ds =>
            rw [hd] at hfirst
            exact hfirst
      · have hlt : n < 10 := by omega
        rw [digits, Nat.toDigits_of_lt_base hlt, List.head?_cons]
        have hsmall : ∀ m < 10, 0 < m → some m.digitChar ≠ some '0' := by decide
        exact hsmall n hlt h

theorem isWholePart_digits (n : Nat) : isWholePart (digits n) = true := by
  cases n with
  | zero => rfl
  | succ n =>
      have hhead := head?_digits_ne_zero (Nat.succ_pos n)
      cases hd : digits (n + 1) with
      | nil => exact absurd hd (digits_ne_nil _)
      | cons d ds =>
          rw [hd] at hhead
          have hne : d ≠ '0' := by simpa using hhead
          simp [isWholePart, hne]

/-- A number is written with a digit in front, which is no sign and no mark. -/
theorem exists_digits_eq_cons (n : Nat) : ∃ d ds, digits n = d :: ds ∧ d.isDigit = true := by
  cases hd : digits n with
  | nil => exact absurd hd (digits_ne_nil n)
  | cons d ds =>
      have hmem : d ∈ digits n := by simp [hd]
      exact ⟨d, ds, rfl, isDigit_of_mem_digits hmem⟩

theorem ne_of_isDigit {d c : Char} (hd : d.isDigit = true) (hc : c.isDigit = false) : d ≠ c := by
  rintro rfl
  exact absurd (hd.symm.trans hc) (by decide)

/-! ## The parts of a numeral -/

theorem splitMinus_digits (n : Nat) (rest : List Char) :
    splitMinus (digits n ++ rest) = (false, digits n ++ rest) := by
  obtain ⟨d, ds, hds, hd⟩ := exists_digits_eq_cons n
  have hminus : d ≠ '-' := ne_of_isDigit hd (by decide)
  simp [hds, splitMinus, hminus]

theorem splitSign_digits (n : Nat) : splitSign (digits n) = (false, digits n) := by
  obtain ⟨d, ds, hds, hd⟩ := exists_digits_eq_cons n
  have hminus : d ≠ '-' := ne_of_isDigit hd (by decide)
  have hplus : d ≠ '+' := ne_of_isDigit hd (by decide)
  simp [hds, splitSign, hminus, hplus]

/-- An exponent is read as its sign and its digits say. -/
theorem readExponent_of_splitSign {cs : List Char} {negative : Bool} {n : Nat}
    (h : splitSign cs = (negative, digits n)) :
    readExponent ('e' :: cs) = some (some (if negative then -(n : Int) else n)) := by
  have hspan : spanDigits (digits n) = (digits n, []) := by
    have happend : spanDigits (digits n ++ []) = (digits n, []) :=
      spanDigits_append (fun _ => isDigit_of_mem_digits) (by simp)
    rwa [List.append_nil] at happend
  obtain ⟨d, ds, hds, -⟩ := exists_digits_eq_cons n
  have hvalue : natOfDigits (d :: ds) = n := by rw [← hds, natOfDigits_digits]
  simp only [readExponent, true_or, if_true, h, hspan]
  simp only [hds, hvalue]

theorem readExponent_exponentChars (plus : Bool) (e : Int) :
    readExponent (exponentChars plus e) = some (some e) := by
  by_cases hneg : e < 0
  · have hsign : splitSign ('-' :: digits e.natAbs) = (true, digits e.natAbs) := rfl
    have habs : -(e.natAbs : Int) = e := by omega
    have hread := readExponent_of_splitSign hsign
    rw [if_pos rfl, habs] at hread
    rw [exponentChars, if_pos hneg]
    exact hread
  · have habs : (e.natAbs : Int) = e := by omega
    rw [exponentChars, if_neg hneg]
    cases plus with
    | true =>
        have hsign : splitSign ('+' :: digits e.natAbs) = (false, digits e.natAbs) := rfl
        have hread := readExponent_of_splitSign hsign
        rw [if_neg (by decide), habs] at hread
        exact hread
    | false =>
        have hread := readExponent_of_splitSign (splitSign_digits e.natAbs)
        rw [if_neg (by decide), habs] at hread
        exact hread

/-- The exponent of a numeral as it is written, where it has one. -/
def exponentPart (plus : Bool) : Option Int → List Char
  | none => []
  | some e => exponentChars plus e

/-- What follows the whole part of a numeral. -/
def tailPart (plus : Bool) (n : Numeral) : List Char :=
  (if n.fraction.isEmpty then [] else '.' :: n.fraction) ++ exponentPart plus n.exponent

theorem chars_eq (plus : Bool) (n : Numeral) :
    n.chars plus = (if n.negative then ['-'] else []) ++ (digits n.whole ++ tailPart plus n) := by
  obtain ⟨negative, whole, fraction, exponent⟩ := n
  cases exponent <;> simp [chars, tailPart, exponentPart]

theorem readExponent_exponentPart (plus : Bool) (exponent : Option Int) :
    readExponent (exponentPart plus exponent) = some exponent := by
  cases exponent with
  | none => rfl
  | some e => exact readExponent_exponentChars plus e

theorem head?_exponentPart (plus : Bool) (exponent : Option Int) :
    ∀ c ∈ (exponentPart plus exponent).head?, c.isDigit = false ∧ c ≠ '.' := by
  cases exponent with
  | none => simp [exponentPart]
  | some e => simp [exponentPart, exponentChars]

theorem head?_tailPart (plus : Bool) (n : Numeral) :
    ∀ c ∈ (tailPart plus n).head?, c.isDigit = false := by
  obtain ⟨negative, whole, fraction, exponent⟩ := n
  cases fraction with
  | nil => exact fun c hc => (head?_exponentPart plus exponent c hc).1
  | cons d ds => simp [tailPart]

theorem splitFraction_tailPart (plus : Bool) {n : Numeral} (h : n.IsSpelled) :
    splitFraction (tailPart plus n) = some (n.fraction, exponentPart plus n.exponent) := by
  obtain ⟨negative, whole, fraction, exponent⟩ := n
  have hdigits : ∀ c ∈ fraction, c.isDigit = true := h
  have hhead := head?_exponentPart plus exponent
  cases fraction with
  | nil =>
      simp only [tailPart, List.isEmpty_nil, if_true, List.nil_append]
      cases htail : exponentPart plus exponent with
      | nil => rfl
      | cons c cs =>
          have hpoint : c ≠ '.' := (hhead c (by simp [htail])).2
          simp [splitFraction, hpoint]
  | cons d ds =>
      have hspan := spanDigits_append hdigits fun c hc => (hhead c hc).1
      rw [List.cons_append] at hspan
      simp [tailPart, splitFraction, hspan]

/-! ## The whole numeral -/

/-- A spelled numeral is read back as it was written. -/
theorem ofChars?_chars {n : Numeral} (h : n.IsSpelled) (plus : Bool) :
    ofChars? (n.chars plus) = some n := by
  have hminus : splitMinus (n.chars plus) = (n.negative, digits n.whole ++ tailPart plus n) := by
    rw [chars_eq]
    cases n.negative with
    | true => rfl
    | false => exact splitMinus_digits n.whole (tailPart plus n)
  have hwhole : spanDigits (digits n.whole ++ tailPart plus n)
      = (digits n.whole, tailPart plus n) :=
    spanDigits_append (fun _ => isDigit_of_mem_digits) (head?_tailPart plus n)
  simp only [ofChars?, hminus, hwhole, isWholePart_digits, if_true, splitFraction_tailPart plus h,
    natOfDigits_digits, readExponent_exponentPart, Option.map_some]

end SortMerge.Numeral

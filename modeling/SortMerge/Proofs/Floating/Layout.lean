import SortMerge.Proofs.Floating.Shortest
import SortMerge.Proofs.Numeral

set_option autoImplicit false

/-! # Written words tell their bits

However the digits of a decimal are laid out, the numeral stands for the same number
(`absolute_place`), and that number lies in the interval of one magnitude only. So the numeral of a
finite word tells all its bits, the sign of zero included; a word that is not finite has no numeral
(`numeral_decode_eq_iff`). -/

namespace SortMerge

namespace Numeral

/-- The number that a numeral stands for, its sign apart. -/
def absolute (n : Numeral) : ℚ :=
  (n.whole + natOfDigits n.fraction / 10 ^ n.fraction.length) * 10 ^ n.exponent.getD 0

theorem natOfDigits_append (ds es : List Char) :
    natOfDigits (ds ++ es) = natOfDigits ds * 10 ^ es.length + natOfDigits es := by
  rw [natOfDigits, Nat.ofDigitChars_append, Nat.ofDigitChars_eq_ofDigitChars_zero, Nat.mul_comm]
  rfl

end Numeral

namespace Floating

namespace Layout

variable (s : Layout)

/-! ## The number behind a numeral -/

theorem natOfDigits_padded (width n : Nat) : Numeral.natOfDigits (padded width n) = n := by
  have hzeros (k : Nat) : Numeral.natOfDigits (List.replicate k '0') = 0 := by
    rw [Numeral.natOfDigits, Nat.ofDigitChars_replicate_zero, Nat.mul_zero]
  rw [padded, Numeral.natOfDigits_append, hzeros, Nat.zero_mul, Nat.zero_add,
    Numeral.natOfDigits_digits]

/-- A number that fits the width is padded to it exactly. -/
theorem length_padded {width n : Nat} (hwidth : 0 < width) (h : n < 10 ^ width) :
    (padded width n).length = width := by
  have hfits : (Numeral.digits n).length ≤ width :=
    (Nat.length_toDigits_le_iff (by decide) hwidth).2 h
  rw [padded, List.length_append, List.length_replicate]
  omega

/-- A point that is put in front of the last digits divides by a power of ten. -/
theorem absolute_point (negative : Bool) (c : Nat) {places : Nat} (h : 0 < places) :
    (Numeral.mk negative (c / Nat.pow 10 places) (padded places (c % Nat.pow 10 places))
      none).absolute = c / 10 ^ places := by
  have hlength : (padded places (c % Nat.pow 10 places)).length = places :=
    length_padded h (Nat.mod_lt _ (Nat.pow_pos (by decide)))
  have hsplit : ((c / Nat.pow 10 places * Nat.pow 10 places + c % Nat.pow 10 places : Nat) : ℚ)
      = c := by
    rw [Nat.div_add_mod']
  rw [Nat.pow_eq] at hsplit hlength ⊢
  push_cast at hsplit
  simp only [Numeral.absolute, natOfDigits_padded, hlength, Option.getD_none, zpow_zero, mul_one]
  field_simp
  exact hsplit

/-- A point behind the first digit multiplies by as many tens as digits follow it. -/
theorem absolute_scientific (negative : Bool) {ds : List Char} (h : ds ≠ []) (e : Int) :
    (Numeral.mk negative (Numeral.natOfDigits (ds.take 1)) (ds.drop 1)
      (some (ds.length - 1 + e))).absolute = Numeral.natOfDigits ds * 10 ^ e := by
  have hpos := List.length_pos_of_ne_nil h
  have hexponent : (ds.length : Int) - 1 + e = ((ds.drop 1).length : Int) + e := by
    rw [List.length_drop]
    omega
  have hvalue : (Numeral.natOfDigits ds : ℚ)
      = Numeral.natOfDigits (ds.take 1) * 10 ^ (ds.drop 1).length
        + Numeral.natOfDigits (ds.drop 1) := by
    have happend := Numeral.natOfDigits_append (ds.take 1) (ds.drop 1)
    rw [List.take_append_drop] at happend
    exact_mod_cast happend
  simp only [Numeral.absolute, Option.getD_some]
  rw [hexponent, zpow_add₀ (by norm_num), zpow_natCast, hvalue]
  field_simp

/-- The layout does not change the number. -/
theorem absolute_place (negative : Bool) (d : Decimal) :
    (s.place negative d).absolute = d.value := by
  rw [place]
  split
  · split
    · next hexponent =>
        have hzero : Numeral.natOfDigits ['0'] = 0 := rfl
        simp only [Numeral.absolute, hzero]
        rw [Decimal.value, ← natAbs_pow_of_nonneg (not_lt.2 hexponent), Nat.pow_eq]
        push_cast
        simp
    · next hexponent =>
        have hneg : d.exponent < 0 := not_le.1 hexponent
        have hinv := natAbs_pow_of_neg (b := 10) (by norm_num) hneg
        rw [absolute_point negative d.coefficient (by omega), Decimal.value,
          eq_comm, eq_div_iff (by positivity), mul_assoc, hinv, mul_one]
  · rw [absolute_scientific negative (Numeral.digits_ne_nil d.coefficient),
      Numeral.natOfDigits_digits, Decimal.value]

theorem negative_place (negative : Bool) (d : Decimal) :
    (s.place negative d).negative = negative := by
  rw [place]
  split
  · split <;> rfl
  · rfl

theorem isDigit_of_mem_padded {width n : Nat} {c : Char} (h : c ∈ padded width n) :
    c.isDigit = true := by
  rcases List.mem_append.1 h with h | h
  · rw [List.eq_of_mem_replicate h]
    rfl
  · exact Numeral.isDigit_of_mem_digits h

theorem isSpelled_place (negative : Bool) (d : Decimal) : (s.place negative d).IsSpelled := by
  rw [place]
  split
  · split
    · exact List.forall_mem_singleton.2 rfl
    · exact fun _ => isDigit_of_mem_padded
  · exact fun _ h => Numeral.isDigit_of_mem_digits (List.mem_of_mem_drop h)

/-! ## The numeral of a word -/

variable {f : Format}

/-- The numeral has the sign of the word and stands for a number in the interval of its
    magnitude. -/
structure Tells (n : Numeral) (f : Format) (word : Nat) : Prop where
  sign : n.negative = f.isNegative word
  number : n.absolute ∈ (f.owned (f.magnitude word)).points

/-- A finite word has a numeral, and the numeral tells the word. -/
theorem tells_numeral (hf : f.IsDecimal) {word : Nat} (h : f.isFinite word = true) :
    ∃ n, s.numeral f (f.decode word) = some n ∧ Tells n f word ∧ n.IsSpelled := by
  rw [f.decode_of_isFinite h]
  cases hzero : f.significand (f.magnitude word) with
  | zero =>
      have hmagnitude : f.magnitude word = 0 := f.eq_zero_of_significand hzero
      refine ⟨⟨f.isNegative word, 0, ['0'], none⟩, rfl, ⟨rfl, ?_⟩, List.forall_mem_singleton.2 rfl⟩
      have habsolute : (Numeral.mk (f.isNegative word) 0 ['0'] none).absolute = 0 := by
        have hfraction : Numeral.natOfDigits ['0'] = 0 := rfl
        simp [Numeral.absolute, hfraction]
      rw [habsolute, hmagnitude]
      exact f.zero_mem_points hf.fractionBits_pos
  | succ m =>
      have hpos : 0 < f.significand (f.magnitude word) := by omega
      have hmem := Format.value_shortest_mem_points hf s.tie hpos (of_decide_eq_true h)
      rw [hzero] at hmem
      refine ⟨_, rfl, ⟨s.negative_place _ _, ?_⟩, s.isSpelled_place _ _⟩
      rw [absolute_place]
      exact hmem

theorem numeral_of_not_isFinite {word : Nat} (h : f.isFinite word = false) :
    s.numeral f (f.decode word) = none := by
  rw [Format.decode, if_pos (f.field_of_not_isFinite h)]
  split <;> rfl

/-- A numeral tells one word only. -/
theorem eq_of_tells (hf : f.IsDecimal) {v w : Nat} (hv : v < 2 * f.signBit) (hw : w < 2 * f.signBit)
    {n : Numeral} (hnv : Tells n f v) (hnw : Tells n f w) : v = w := by
  have hsign : f.isNegative v = f.isNegative w := hnv.sign.symm.trans hnw.sign
  have hmagnitude := f.eq_of_mem_points hf.fractionBits_pos hnv.number hnw.number
  exact Format.eq_of_isNegative_of_magnitude hv hw hsign hmagnitude

/-- Two words have the same numeral, or both none, if they are one word or neither is finite. -/
theorem numeral_decode_eq_iff (hf : f.IsDecimal) {v w : Nat} (hv : v < 2 * f.signBit)
    (hw : w < 2 * f.signBit) :
    s.numeral f (f.decode v) = s.numeral f (f.decode w)
      ↔ v = w ∨ f.isFinite v = false ∧ f.isFinite w = false := by
  constructor
  · intro heq
    cases hfv : f.isFinite v with
    | false =>
        cases hfw : f.isFinite w with
        | false => exact .inr ⟨rfl, rfl⟩
        | true =>
            obtain ⟨n, hn, -, -⟩ := s.tells_numeral hf hfw
            rw [s.numeral_of_not_isFinite hfv, hn] at heq
            exact absurd heq (by simp)
    | true =>
        obtain ⟨n, hn, htells, -⟩ := s.tells_numeral hf hfv
        cases hfw : f.isFinite w with
        | false =>
            rw [s.numeral_of_not_isFinite hfw, hn] at heq
            exact absurd heq (by simp)
        | true =>
            obtain ⟨m, hm, htells', -⟩ := s.tells_numeral hf hfw
            rw [hn, hm, Option.some.injEq] at heq
            subst heq
            exact .inl (eq_of_tells hf hv hw htells htells')
  · rintro (rfl | ⟨hfv, hfw⟩)
    · rfl
    · rw [s.numeral_of_not_isFinite hfv, s.numeral_of_not_isFinite hfw]

end Layout

end Floating

end SortMerge

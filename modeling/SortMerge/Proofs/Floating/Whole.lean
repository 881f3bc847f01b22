import Mathlib.Data.Rat.Floor
import SortMerge.Proofs.Floating.Extended

set_option autoImplicit false

/-! # Comparing an integer with a float by whole parts

A machine compares a 64-bit integer with a float without rounding either: it looks at the float's
whole part, and at what is behind the point only if the whole parts are equal. The whole part has to
fit the integer's width for that. The bounds `-2^63` and `2^63` that are tried before are exactly
what makes it fit; that the upper one is not itself a 64-bit integer is why a float that reaches it
is settled at once. The comparison made in this way is the exact one. -/

namespace SortMerge.Floating.Value

/-- The whole part of a finite value, towards zero; the other values have none and count as zero. -/
def wholePart (v : Value) : Int :=
  if v.scale < 0 then v.coefficient.tdiv (1 <<< v.scale.natAbs)
  else v.coefficient <<< v.scale.natAbs

/-- The least number above all 64-bit integers. -/
def upperBound : Value := .finite false 1 63

/-- The least 64-bit integer. -/
def lowerBound : Value := .finite true 1 63

/-- Whether a value is above all 64-bit integers; what is no number is. -/
def isAbove (v : Value) : Bool := v == .nan || upperBound.compare v != .gt

/-- Whether a value is below all 64-bit integers. -/
def isBelow (v : Value) : Bool := v.compare lowerBound == .lt

/-- The order of a 64-bit integer and a value: outside the bounds it is known, and inside them the
    whole part is converted to 64 bits. -/
def compareByWhole (v : Value) (i : Int64) : Ordering :=
  if v.isAbove then .lt
  else if v.isBelow then .gt
  else (Ord.compare i.toInt (Int64.ofInt v.wholePart).toInt).then
    ((Value.ofInt v.wholePart).compare v)

/-! ## The whole part -/

theorem rational_eq_div {v : Value} (h : v.scale < 0) :
    v.rational = v.coefficient / (1 <<< v.scale.natAbs : ℕ) := by
  have hscale : v.scale = -(v.scale.natAbs : ℤ) := by omega
  rw [rational, hscale, zpow_neg, zpow_natCast, Nat.one_shiftLeft, Int.natAbs_neg,
    Int.natAbs_natCast, div_eq_mul_inv]
  push_cast
  rfl

theorem rational_eq_intCast {v : Value} (h : ¬ v.scale < 0) :
    v.rational = (v.coefficient <<< v.scale.natAbs : ℤ) := by
  have hscale : v.scale = (v.scale.natAbs : ℤ) := by omega
  rw [rational, hscale, zpow_natCast, Int.shiftLeft_eq, Int.natAbs_natCast]
  push_cast
  rfl

/-- The whole part is the neighbouring integer towards zero. -/
theorem wholePart_eq (v : Value) :
    v.wholePart = if 0 ≤ v.rational then ⌊v.rational⌋ else ⌈v.rational⌉ := by
  rw [wholePart]
  by_cases hscale : v.scale < 0
  · have hpos : (0 : ℚ) < (1 <<< v.scale.natAbs : ℕ) := by
      rw [Nat.one_shiftLeft]
      positivity
    have hsign : 0 ≤ v.rational ↔ 0 ≤ v.coefficient := by
      rw [rational_eq_div hscale, le_div_iff₀ hpos, zero_mul, Int.cast_nonneg_iff]
    rw [if_pos hscale]
    split
    · next h =>
        rw [rational_eq_div hscale, Rat.floor_intCast_div_natCast,
          Int.tdiv_eq_ediv_of_nonneg (hsign.1 h)]
    · next h =>
        have hneg : 0 ≤ -v.coefficient := by
          rw [hsign] at h
          omega
        rw [rational_eq_div hscale, Rat.ceil_intCast_div_natCast, ← Int.tdiv_eq_ediv_of_nonneg hneg,
          Int.neg_tdiv, Int.neg_neg]
  · rw [if_neg hscale, rational_eq_intCast hscale, Int.floor_intCast, Int.ceil_intCast, ite_self]

theorem lt_of_lt_wholePart {v : Value} {i : Int} (h : i < v.wholePart) : (i : ℚ) < v.rational := by
  rw [wholePart_eq] at h
  split at h
  · exact (Int.cast_lt.2 h).trans_le (Int.floor_le _)
  · exact Int.lt_ceil.1 h

theorem lt_of_wholePart_lt {v : Value} {i : Int} (h : v.wholePart < i) : v.rational < i := by
  rw [wholePart_eq] at h
  split at h
  · exact Int.floor_lt.1 h
  · exact (Int.le_ceil _).trans_lt (Int.cast_lt.2 h)

/-- The whole part stays between bounds of the value that have zero between them. -/
theorem wholePart_mem_range {v : Value} {lo hi : Int} (hlo : (lo : ℚ) ≤ v.rational)
    (hhi : v.rational < hi) (hzero : 0 < hi) : lo ≤ v.wholePart ∧ v.wholePart < hi := by
  constructor
  · by_contra h
    exact absurd (lt_of_wholePart_lt (not_le.1 h)) (not_lt.2 hlo)
  · rw [wholePart_eq]
    split
    · exact Int.floor_lt.2 hhi
    · next h => exact lt_of_le_of_lt (Int.ceil_le.2 (by exact_mod_cast (not_le.1 h).le)) hzero

theorem rational_ofInt (i : Int) : (ofInt i).rational = i := by
  have hcoefficient : (ofInt i).coefficient = i := by
    by_cases h : i < 0
    · simp only [ofInt, coefficient, h, decide_true]
      omega
    · simp only [ofInt, coefficient, h, decide_false]
      omega
  rw [rational, hcoefficient]
  simp [ofInt, scale]

/-! ## The comparison -/

/-- An integer compares with a finite value as rational numbers. -/
theorem compare_ofInt_of_finite {s : Bool} {m : Nat} {e : Int} (i : Int) :
    (ofInt i).compare (.finite s m e) = cmp (i : ℚ) (Value.finite s m e).rational := by
  rw [compare_eq_band_then_rational, rational_ofInt, cmp_eq_compare]
  rfl

theorem upperBound_rational : upperBound.rational = ((2 ^ 63 : ℤ) : ℚ) := by
  norm_num [upperBound, rational, coefficient, scale]

theorem lowerBound_rational : lowerBound.rational = ((-2 ^ 63 : ℤ) : ℚ) := by
  norm_num [lowerBound, rational, coefficient, scale]

section Finite

variable {s : Bool} {m : Nat} {e : Int}

theorem isAbove_finite :
    (finite s m e).isAbove = true ↔ ((2 ^ 63 : ℤ) : ℚ) ≤ (finite s m e).rational := by
  have hcompare : upperBound.compare (.finite s m e)
      = cmp upperBound.rational (Value.finite s m e).rational := by
    rw [compare_eq_band_then_rational, cmp_eq_compare]
    rfl
  have hnumber : (finite s m e == nan) = false := beq_eq_false_iff_ne.2 (by simp)
  rw [isAbove, hnumber, Bool.false_or, hcompare, upperBound_rational, bne_iff_ne, ne_eq,
    cmp_eq_gt_iff, not_lt]

theorem isBelow_finite :
    (finite s m e).isBelow = true ↔ (finite s m e).rational < ((-2 ^ 63 : ℤ) : ℚ) := by
  have hcompare : (finite s m e).compare lowerBound
      = cmp (Value.finite s m e).rational lowerBound.rational := by
    rw [compare_eq_band_then_rational, cmp_eq_compare]
    rfl
  rw [isBelow, hcompare, lowerBound_rational, beq_iff_eq, cmp_eq_lt_iff]

end Finite

/-- Inside the bounds are finite values only. -/
theorem rational_mem_range {v : Value} (habove : v.isAbove = false) (hbelow : v.isBelow = false) :
    ((-2 ^ 63 : ℤ) : ℚ) ≤ v.rational ∧ v.rational < ((2 ^ 63 : ℤ) : ℚ) := by
  match v with
  | .nan | .infinite false => cases habove
  | .infinite true => cases hbelow
  | .finite s m e =>
      rw [← Bool.not_eq_true, isAbove_finite, not_le] at habove
      rw [← Bool.not_eq_true, isBelow_finite, not_lt] at hbelow
      exact ⟨hbelow, habove⟩

/-- Whenever the whole part is converted to 64 bits it fits them. -/
theorem toInt_ofInt_wholePart {v : Value} (habove : v.isAbove = false)
    (hbelow : v.isBelow = false) : (Int64.ofInt v.wholePart).toInt = v.wholePart := by
  obtain ⟨hlo, hhi⟩ := rational_mem_range habove hbelow
  obtain ⟨hlo, hhi⟩ := wholePart_mem_range hlo hhi (by norm_num)
  exact Int64.toInt_ofInt_of_le (by simpa using hlo) (by simpa using hhi)

/-- Inside the bounds, unequal whole parts decide, and equal ones leave it to what is behind the
    point. -/
theorem compare_wholePart_then {s : Bool} {m : Nat} {e : Int} (i : Int) :
    (Ord.compare i (finite s m e).wholePart).then
        ((ofInt (finite s m e).wholePart).compare (.finite s m e))
      = cmp (i : ℚ) (finite s m e).rational := by
  rcases lt_trichotomy i (finite s m e).wholePart with h | h | h
  · rw [compare_lt_iff_lt.2 h, (cmp_eq_lt_iff _ _).2 (lt_of_lt_wholePart h)]
    rfl
  · rw [← h, Std.ReflOrd.compare_self, compare_ofInt_of_finite]
    rfl
  · rw [compare_gt_iff_gt.2 h, (cmp_eq_gt_iff _ _).2 (lt_of_wholePart_lt h)]
    rfl

theorem compareByWhole_eq (i : Int64) (v : Value) :
    v.compareByWhole i = (ofInt i.toInt).compare v := by
  match v with
  | .nan | .infinite false | .infinite true => rfl
  | .finite s m e =>
      rw [compare_ofInt_of_finite, compareByWhole]
      by_cases habove : (finite s m e).isAbove = true
      · have hlt : (i.toInt : ℚ) < ((2 ^ 63 : ℤ) : ℚ) := Int.cast_lt.2 i.toInt_lt
        rw [if_pos habove]
        exact ((cmp_eq_lt_iff _ _).2 (hlt.trans_le (isAbove_finite.1 habove))).symm
      · rw [if_neg habove]
        by_cases hbelow : (finite s m e).isBelow = true
        · have hle : ((-2 ^ 63 : ℤ) : ℚ) ≤ (i.toInt : ℚ) := Int.cast_le.2 i.le_toInt
          rw [if_pos hbelow]
          exact ((cmp_eq_gt_iff _ _).2 ((isBelow_finite.1 hbelow).trans_le hle)).symm
        · rw [if_neg hbelow, toInt_ofInt_wholePart (by simpa using habove) (by simpa using hbelow),
            compare_wholePart_then]

end SortMerge.Floating.Value

import Mathlib.Tactic.Linarith
import SortMerge.Proofs.Floating.Neighbours

set_option autoImplicit false

/-! # The shortest decimal lies in the interval

The search for the shortest decimal of a value works on natural numbers: both the interval and the
decimal grid are multiplied by one factor. Whatever point of a grid the search gives is a number of
the interval (`mem_points_of_onGrid`). It gives one at the latest on the grid of seventeen digits,
because that grid is finer than the interval is wide (`exists_onGrid`). So the shortest decimal of a
magnitude lies in its interval (`value_shortest_mem_points`). -/

namespace SortMerge.Floating

/-! ## Decimals -/

namespace Decimal

/-- The number that a decimal stands for. -/
def value (d : Decimal) : ℚ := d.coefficient * 10 ^ d.exponent

@[simp] theorem value_trimmed (d : Decimal) : d.trimmed.value = d.value := by
  rw [trimmed]
  split
  · next hzero =>
      have hcoefficient : d.coefficient = d.coefficient / 10 * 10 := by omega
      rw [value, value, zpow_add_one₀ (by norm_num)]
      nth_rewrite 2 [hcoefficient]
      push_cast
      ring
  · rfl

end Decimal

/-! ## Grids -/

theorem natAbs_pow_of_nonneg {b : ℚ} {e : Int} (h : ¬ e < 0) : b ^ e.natAbs = b ^ e := by
  rw [← zpow_natCast, Int.natAbs_of_nonneg (not_lt.1 h)]

theorem natAbs_pow_of_neg {b : ℚ} (hb : b ≠ 0) {e : Int} (h : e < 0) :
    b ^ e * b ^ e.natAbs = 1 := by
  have habs : e + (e.natAbs : Int) = 0 := by omega
  rw [← zpow_natCast, ← zpow_add₀ hb, habs, zpow_zero]

/-- The numerator of the power `b ^ e`. -/
def powerNum (b : Nat) (e : Int) : Nat := if e < 0 then 1 else Nat.pow b e.natAbs

/-- The denominator of the power `b ^ e`. -/
def powerDen (b : Nat) (e : Int) : Nat := if e < 0 then Nat.pow b e.natAbs else 1

section Power

variable {b : Nat} (hb : 0 < b) (e : Int)
include hb

theorem powerNum_pos : 0 < powerNum b e := by
  rw [powerNum]
  split
  · exact Nat.one_pos
  · exact Nat.pow_pos hb

theorem powerDen_pos : 0 < powerDen b e := by
  rw [powerDen]
  split
  · exact Nat.pow_pos hb
  · exact Nat.one_pos

theorem powerNum_eq : (powerNum b e : ℚ) = (b : ℚ) ^ e * powerDen b e := by
  rw [powerNum, powerDen]
  split
  · next hneg =>
      rw [Nat.pow_eq, Nat.cast_pow, natAbs_pow_of_neg (by exact_mod_cast hb.ne') hneg, Nat.cast_one]
  · next hneg =>
      rw [Nat.pow_eq, Nat.cast_pow, natAbs_pow_of_nonneg hneg, Nat.cast_one, mul_one]

end Power

namespace Interval

variable {i : Interval} {k : Int} {unit step : Nat}

theorem units_eq (i : Interval) (k : Int) :
    i.units k = (powerNum 2 i.exponent * powerDen 10 k, powerNum 10 k * powerDen 2 i.exponent) := by
  by_cases he : i.exponent < 0 <;> by_cases hk : k < 0 <;>
    simp [units, powerNum, powerDen, he, hk, Nat.one_shiftLeft]

theorem units_pos (h : i.units k = (unit, step)) : 0 < unit ∧ 0 < step := by
  rw [units_eq] at h
  obtain ⟨rfl, rfl⟩ := Prod.mk.inj h
  exact ⟨Nat.mul_pos (powerNum_pos (by decide) _) (powerDen_pos (by decide) _),
    Nat.mul_pos (powerNum_pos (by decide) _) (powerDen_pos (by decide) _)⟩

/-- The unit of the interval and the unit of the grid are multiplied by one factor. -/
theorem exists_factor (h : i.units k = (unit, step)) :
    ∃ factor : ℚ, 0 < factor ∧ (unit : ℚ) = 2 ^ i.exponent * factor
      ∧ (step : ℚ) = 10 ^ k * factor := by
  rw [units_eq] at h
  obtain ⟨rfl, rfl⟩ := Prod.mk.inj h
  have hpos : 0 < powerDen 2 i.exponent * powerDen 10 k :=
    Nat.mul_pos (powerDen_pos (by decide) _) (powerDen_pos (by decide) _)
  refine ⟨(powerDen 2 i.exponent * powerDen 10 k : Nat), by exact_mod_cast hpos, ?_, ?_⟩
  · rw [Nat.cast_mul, powerNum_eq (by decide)]
    push_cast
    ring
  · rw [Nat.cast_mul, powerNum_eq (by decide)]
    push_cast
    ring

/-- The test of a grid point is membership of the number that it stands for. -/
theorem contains_iff (h : i.units k = (unit, step)) (c : Nat) :
    i.contains unit (c * step) = true ↔ (c : ℚ) * 10 ^ k ∈ i.points := by
  obtain ⟨factor, hpos, hunit, hstep⟩ := exists_factor h
  have hend (m : Nat) : ((m * unit : Nat) : ℚ) = m * 2 ^ i.exponent * factor := by
    rw [Nat.cast_mul, hunit, mul_assoc]
  have hpoint : ((c * step : Nat) : ℚ) = c * 10 ^ k * factor := by
    rw [Nat.cast_mul, hstep, mul_assoc]
  rw [contains, points, lowEnd, highEnd]
  split
  · rw [Bool.and_eq_true, decide_eq_true_eq, decide_eq_true_eq, Set.mem_Icc,
      ← Nat.cast_le (α := ℚ), ← Nat.cast_le (α := ℚ), hend, hend, hpoint,
      mul_le_mul_iff_of_pos_right hpos, mul_le_mul_iff_of_pos_right hpos]
  · rw [Bool.and_eq_true, decide_eq_true_eq, decide_eq_true_eq, Set.mem_Ioo,
      ← Nat.cast_lt (α := ℚ), ← Nat.cast_lt (α := ℚ), hend, hend, hpoint,
      mul_lt_mul_iff_of_pos_right hpos, mul_lt_mul_iff_of_pos_right hpos]

theorem contains_choice {below : Nat} (takeAbove : Bool)
    (hbelow : i.contains unit (below * step) = true)
    (habove : i.contains unit ((below + 1) * step) = true) :
    i.contains unit ((if takeAbove then below + 1 else below) * step) = true := by
  cases takeAbove with
  | false => exact hbelow
  | true => exact habove

/-- What a grid gives is a point of the grid that has passed the test. -/
theorem contains_of_onGrid {tie : Tie} {d : Decimal} (hunits : i.units k = (unit, step))
    (h : i.onGrid tie k = some d) :
    i.contains unit (d.coefficient * step) = true ∧ d.exponent = k := by
  rw [onGrid, hunits] at h
  cases hbelow : i.contains unit (i.value * unit / step * step) with
  | false =>
      cases habove : i.contains unit ((i.value * unit / step + 1) * step) with
      | false => simp [hbelow, habove] at h
      | true =>
          simp only [hbelow, habove, Option.some.injEq] at h
          exact h ▸ ⟨habove, rfl⟩
  | true =>
      cases habove : i.contains unit ((i.value * unit / step + 1) * step) with
      | false =>
          simp only [hbelow, habove, Option.some.injEq] at h
          exact h ▸ ⟨hbelow, rfl⟩
      | true =>
          simp only [hbelow, habove, Option.some.injEq] at h
          subst h
          exact ⟨contains_choice _ hbelow habove, rfl⟩

theorem mem_points_of_onGrid {tie : Tie} {d : Decimal} (h : i.onGrid tie k = some d) :
    d.value ∈ i.points := by
  cases hunits : i.units k with
  | mk unit step =>
      obtain ⟨hcontains, hexponent⟩ := contains_of_onGrid hunits h
      rw [Decimal.value, hexponent]
      exact (contains_iff hunits _).1 hcontains

theorem contains_of_lt_of_lt {point : Nat} (hlow : i.low * unit < point)
    (hhigh : point < i.high * unit) : i.contains unit point = true := by
  rw [contains]
  split
  · simp [hlow.le, hhigh.le]
  · simp [hlow, hhigh]

/-- A grid that is finer than the interval is wide has a point in it. -/
theorem exists_onGrid (tie : Tie) (hunits : i.units k = (unit, step)) (hlow : i.low < i.value)
    (hhigh : i.value < i.high) (hstep : step < (i.high - i.low) * unit) :
    ∃ d, i.onGrid tie k = some d := by
  obtain ⟨hunitPos, hstepPos⟩ := units_pos hunits
  -- the value lies between the two points that are tried
  have hbelow := Nat.div_mul_le_self (i.value * unit) step
  have habove : i.value * unit < i.value * unit / step * step + step :=
    Nat.lt_div_mul_add hstepPos
  have hvalueLow := Nat.mul_lt_mul_of_pos_right hlow hunitPos
  have hvalueHigh := Nat.mul_lt_mul_of_pos_right hhigh hunitPos
  rw [Nat.sub_mul] at hstep
  have hpoint : i.contains unit (i.value * unit / step * step) = true
      ∨ i.contains unit ((i.value * unit / step + 1) * step) = true := by
    by_cases hin : i.low * unit < i.value * unit / step * step
    · exact .inl (contains_of_lt_of_lt hin (Nat.lt_of_le_of_lt hbelow hvalueHigh))
    · refine .inr (contains_of_lt_of_lt ?_ ?_)
      · rw [Nat.add_one_mul]
        omega
      · rw [Nat.add_one_mul]
        omega
  rw [onGrid, hunits]
  rcases hpoint with h | h
  · cases hother : i.contains unit ((i.value * unit / step + 1) * step) <;> simp [h, hother]
  · cases hother : i.contains unit (i.value * unit / step * step) <;> simp [h, hother]

/-! ## Size -/

/-- `30103 / 100000` is a little above the decimal logarithm of two, but by so little that in this
    range a product with it, rounded down, is no larger than one with the logarithm. -/
theorem ten_pow_guess : ∀ n < 1100, Nat.pow 10 (n * 30103 / 100000) ≤ Nat.pow 2 n
    ∧ Nat.pow 2 n ≤ Nat.pow 10 ((n * 30103 + 99999) / 100000) := by
  decide +kernel

/-- The guess of the decimal exponent is not too large. -/
theorem ten_zpow_guess_le {e : Int} (hlow : -1100 < e) (hhigh : e < 1100) :
    (10 : ℚ) ^ (e * 30103 / 100000) ≤ 2 ^ e := by
  by_cases hneg : e < 0
  · have hguess : e * 30103 / 100000 = -((e.natAbs * 30103 + 99999) / 100000 : Nat) := by omega
    have he : e = -(e.natAbs : Int) := by omega
    have hpow : (2 : ℚ) ^ e.natAbs ≤ 10 ^ ((e.natAbs * 30103 + 99999) / 100000) := by
      exact_mod_cast (ten_pow_guess e.natAbs (by omega)).2
    rw [hguess, zpow_neg, zpow_natCast]
    nth_rewrite 2 [he]
    rw [zpow_neg, zpow_natCast]
    exact inv_anti₀ (pow_pos (by norm_num) _) hpow
  · have hguess : e * 30103 / 100000 = (e.natAbs * 30103 / 100000 : Nat) := by omega
    have hpow : (10 : ℚ) ^ (e.natAbs * 30103 / 100000) ≤ 2 ^ e.natAbs := by
      exact_mod_cast (ten_pow_guess e.natAbs (by omega)).1
    rwa [hguess, zpow_natCast, ← natAbs_pow_of_nonneg hneg]

/-- The power of ten that `magnitude` gives is not above the value. -/
theorem ten_zpow_magnitude_le (hvalue : 0 < i.value) (hlow : -1100 < i.value.log2 + i.exponent)
    (hhigh : i.value.log2 + i.exponent < 1100) :
    (10 : ℚ) ^ i.magnitude ≤ i.value * 2 ^ i.exponent := by
  rw [magnitude]
  cases hunits : i.units ((i.value.log2 + i.exponent) * 30103 / 100000 + 1) with
  | mk unit step =>
      dsimp only
      split
      · next hle =>
          obtain ⟨factor, hpos, hunit, hstep⟩ := exists_factor hunits
          have hcast : (step : ℚ) ≤ i.value * unit := by exact_mod_cast hle
          rw [hunit, hstep, ← mul_assoc] at hcast
          exact le_of_mul_le_mul_right hcast hpos
      · have hlog : ((2 ^ i.value.log2 : Nat) : ℚ) ≤ i.value := by
          exact_mod_cast Nat.log2_self_le (Nat.ne_of_gt hvalue)
        calc (10 : ℚ) ^ ((i.value.log2 + i.exponent) * 30103 / 100000)
            ≤ 2 ^ ((i.value.log2 : Int) + i.exponent) := ten_zpow_guess_le hlow hhigh
          _ = (2 ^ i.value.log2 : Nat) * 2 ^ i.exponent := by
              rw [zpow_add₀ (by norm_num), zpow_natCast, Nat.cast_pow, Nat.cast_ofNat]
          _ ≤ i.value * 2 ^ i.exponent :=
              mul_le_mul_of_nonneg_right hlog (zpow_nonneg (by norm_num) _)

/-- An interval that is wide enough has a point with seventeen digits. -/
theorem exists_onGrid_of_wide (tie : Tie) (hlow : i.low < i.value) (hhigh : i.value < i.high)
    (hwide : i.value < (i.high - i.low) * 10000000000000000)
    (hsize : (10 : ℚ) ^ i.magnitude ≤ i.value * 2 ^ i.exponent) :
    ∃ d, i.onGrid tie (i.magnitude - 16) = some d := by
  cases hunits : i.units (i.magnitude - 16) with
  | mk unit step =>
      obtain ⟨factor, hpos, hunit, hstep⟩ := exists_factor hunits
      have hscaled : step * 10000000000000000 ≤ i.value * unit := by
        have hpow : (10 : ℚ) ^ (i.magnitude - 16) * 10000000000000000 = 10 ^ i.magnitude := by
          rw [zpow_sub₀ (by norm_num)]
          norm_num
        have hcast : (step : ℚ) * 10000000000000000 ≤ i.value * unit := by
          rw [hunit, hstep, mul_right_comm, hpow, ← mul_assoc]
          exact mul_le_mul_of_nonneg_right hsize hpos.le
        exact_mod_cast hcast
      refine exists_onGrid tie hunits hlow hhigh ?_
      by_contra hcoarse
      have hmul := Nat.mul_lt_mul_of_pos_right hwide (units_pos hunits).1
      rw [Nat.mul_right_comm] at hmul
      omega

end Interval

/-! ## The search -/

namespace Format

/-- The format is narrow enough for seventeen digits: its significands are at most ten to the
    sixteenth, and its exponents are where the guess of the decimal exponent is good. -/
structure IsDecimal (f : Format) : Prop where
  fractionBits_pos : 0 < f.fractionBits
  hiddenBit_le : 2 * f.hiddenBit ≤ 10000000000000000
  leastExponent_gt : -1100 < f.leastExponent
  greatest_lt : f.leastExponent + f.topField + f.fractionBits < 1100

theorem isDecimal_binary32 : binary32.IsDecimal := by
  constructor <;> decide

theorem isDecimal_binary64 : binary64.IsDecimal := by
  constructor <;> decide

variable {f : Format}

/-- The leading bit of a finite value is within the range of the guess. -/
theorem log2_value_owned (hf : f.IsDecimal) {a : Nat} (hpos : 0 < f.significand a)
    (hlt : a < f.infinity) :
    -1100 < (f.owned a).value.log2 + (f.owned a).exponent
      ∧ (f.owned a).value.log2 + (f.owned a).exponent < 1100 := by
  have hvalue : (f.owned a).value = 4 * f.significand a := rfl
  have hexponent : (f.owned a).exponent = f.exponent a - 2 := rfl
  have hfield := f.field_lt_topField hlt
  have hlow : ¬ (4 * f.significand a).log2 < 2 := by
    rw [Nat.log2_lt (by omega)]
    omega
  have hhigh : (4 * f.significand a).log2 < f.fractionBits + 3 := by
    have hsignificand := f.significand_lt a
    rw [hiddenBit, Nat.one_shiftLeft] at hsignificand
    rw [Nat.log2_lt (by omega), Nat.pow_add]
    omega
  have hleast := hf.leastExponent_gt
  have hgreatest := hf.greatest_lt
  rw [hvalue, hexponent, exponent]
  omega

/-- The interval is wide enough for a point with seventeen digits. -/
theorem wide_owned (hf : f.IsDecimal) (a : Nat) :
    (f.owned a).value < ((f.owned a).high - (f.owned a).low) * 10000000000000000 := by
  have hsignificand := f.significand_lt a
  have hhidden := hf.hiddenBit_le
  have hpos := f.hiddenBit_pos
  simp only [owned, interval]
  split
  · next hnarrow =>
      -- below a power of two the interval is narrower, and the significand smaller
      simp only [Bool.and_eq_true, beq_iff_eq] at hnarrow
      have hone := hnarrow.1
      omega
  · omega

/-- The shortest decimal of a positive finite magnitude lies in its interval. -/
theorem value_shortest_mem_points (hf : f.IsDecimal) (tie : Tie) {a : Nat}
    (hpos : 0 < f.significand a) (hlt : a < f.infinity) :
    (f.shortest tie (f.significand a) (f.exponent a)).value ∈ (f.owned a).points := by
  have hlow : (f.owned a).low < (f.owned a).value := by
    simp only [owned, interval]
    split <;> omega
  have hhigh : (f.owned a).value < (f.owned a).high := by
    simp only [owned, interval]
    omega
  obtain ⟨hmin, hmax⟩ := log2_value_owned hf hpos hlt
  have hsize := Interval.ten_zpow_magnitude_le (Nat.lt_of_le_of_lt (Nat.zero_le _) hlow) hmin hmax
  obtain ⟨d, hd⟩ := Interval.exists_onGrid_of_wide tie hlow hhigh (wide_owned hf a) hsize
  rw [shortest, Decimal.value_trimmed, ← owned]
  cases hfound : (List.range 17).findSome? fun n : Nat =>
      (f.owned a).onGrid tie ((f.owned a).magnitude - n) with
  | none =>
      have hnone := List.findSome?_eq_none_iff.1 hfound 16 (by decide)
      exact absurd (hd.symm.trans hnone) (by simp)
  | some d =>
      obtain ⟨n, -, hgrid⟩ := List.exists_of_findSome?_eq_some hfound
      exact Interval.mem_points_of_onGrid hgrid

end Format

end SortMerge.Floating

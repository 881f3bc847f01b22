import Mathlib.Algebra.Order.Field.Basic
import Mathlib.Algebra.Order.Ring.Cast
import Mathlib.Data.Rat.Cast.Order
import Mathlib.Data.Rat.Floor
import Mathlib.Order.WithBot
import SortMerge.Floating.Format

set_option autoImplicit false

/-! # Floating-point values as extended rational numbers

The comparison of two values is the order of extended rational numbers, with whatever is no number
above them all. -/

/-! ## The exact order

`Value.compare` brings two values to the smaller of their scales and compares integers there. The
scale it picks depends on both values, so transitivity cannot be read off it. Here the comparison is
shown to be the order of pairs that belong to one value each: the band, and inside the band the
rational number `Value.rational`. From that it is a total preorder. -/

namespace SortMerge.Floating.Value

/-- The rational number that a finite value stands for; the other values count as zero. -/
def rational (v : Value) : ℚ := v.coefficient * 2 ^ v.scale

/-- A coefficient brought down to the scale `e` still stands for the same number. -/
theorem aligned_mul_zpow (v : Value) {e : Int} (h : e ≤ v.scale) :
    (v.aligned e : ℚ) * 2 ^ e = v.rational := by
  have hexp : (2 : ℚ) ^ (v.scale - e).toNat * 2 ^ e = 2 ^ v.scale := by
    rw [← zpow_natCast, ← zpow_add₀ (by norm_num), Int.toNat_of_nonneg (by omega)]
    congr 1
    omega
  rw [aligned, Int.shiftLeft_eq, rational, ← hexp, ← mul_assoc]
  push_cast
  rfl

/-- Integers at one scale compare as the numbers that they stand for. -/
theorem compare_mul_zpow (m n e : Int) :
    Ord.compare ((m : ℚ) * 2 ^ e) ((n : ℚ) * 2 ^ e) = Ord.compare m n := by
  rw [← cmp_eq_compare, cmp_mul_pos_right (zpow_pos (by norm_num) e),
    Int.cast_strictMono.cmp_map_eq, cmp_eq_compare]

/-- The comparison is the lexicographic order of bands and rational numbers. -/
theorem compare_eq_band_then_rational (a b : Value) :
    compare a b
      = (Ord.compare a.band b.band).then (Ord.compare a.rational b.rational) := by
  -- both integers stand at the smaller scale, whose power of two is a common positive factor
  rw [compare, ← aligned_mul_zpow a (min_le_left _ _), ← aligned_mul_zpow b (min_le_right _ _),
    compare_mul_zpow]

instance : Ord Value := ⟨Value.compare⟩

@[simp] theorem ordCompare_eq (a b : Value) : Ord.compare a b = a.compare b := rfl

instance : Std.TransOrd Value := by
  have h : (Ord.compare : Value → Value → Ordering)
      = compareLex (compareOn band) (compareOn rational) := by
    funext a b
    exact compare_eq_band_then_rational a b
  rw [Std.TransOrd, h]
  infer_instance

end SortMerge.Floating.Value

/-! ## Extended rational numbers

A word of a binary format stands for a rational number, for an infinity beyond all of them, or for
no number. `Format.reading` says which from the three fields of the word, as the standard for such
words puts it, and decoding is shown to agree. -/

namespace SortMerge.Floating

/-- The rational numbers with an infinity at either end. -/
abbrev Extended := WithBot (WithTop ℚ)

/-- A number, or something that is none. -/
inductive Reading where
  | number (value : Extended)
  | nan

/-- The order of numbers; what is no number is above every number and equal to its like. -/
def Reading.compare : Reading → Reading → Ordering
  | .number x, .number y => cmp x y
  | .number _, .nan => .lt
  | .nan, .number _ => .gt
  | .nan, .nan => .eq

/-! ### Values -/

def Value.reading : Value → Reading
  | .nan => .nan
  | .infinite true => .number ⊥
  | .infinite false => .number ⊤
  | .finite s m e => .number (((Value.finite s m e).rational : WithTop ℚ) : Extended)

theorem Reading.compare_swap (x y : Reading) : (x.compare y).swap = y.compare x := by
  match x, y with
  | .number x, .number y => exact cmp_swap x y
  | .number x, .nan | .nan, .number x | .nan, .nan => rfl

theorem cmp_coe (p q : ℚ) :
    cmp ((p : WithTop ℚ) : Extended) ((q : WithTop ℚ) : Extended) = cmp p q := by
  rw [WithBot.coe_strictMono.cmp_map_eq, WithTop.coe_strictMono.cmp_map_eq]

namespace Value

variable {a b : Value}

/-- A value of a lower band stands for less. -/
theorem reading_compare_of_band_lt (h : a.band < b.band) :
    a.reading.compare b.reading = .lt := by
  match a, b with
  | .infinite true, .finite .. => exact (cmp_eq_lt_iff _ _).2 (WithBot.bot_lt_coe _)
  | .infinite true, .infinite false => exact (cmp_eq_lt_iff _ _).2 bot_lt_top
  | .finite .., .infinite false =>
      exact (cmp_eq_lt_iff _ _).2 (WithBot.coe_lt_coe.2 (WithTop.coe_lt_top _))
  | .infinite true, .nan | .infinite false, .nan | .finite .., .nan => rfl
  | .infinite _, .infinite true | .finite .., .infinite true => simp [band] at h
  | .infinite false, .infinite false | .infinite false, .finite .. => simp [band] at h
  | .finite .., .finite .. => simp [band] at h
  | .nan, .infinite true | .nan, .infinite false | .nan, .finite .. | .nan, .nan =>
      simp [band] at h

/-- Values of one band stand for the same, unless they are finite. -/
theorem reading_compare_of_band_eq (h : a.band = b.band) :
    a.reading.compare b.reading = cmp a.rational b.rational := by
  match a, b with
  | .finite .., .finite .. => exact cmp_coe _ _
  | .nan, .nan => exact (cmp_self_eq_eq _).symm
  | .infinite true, .infinite true | .infinite false, .infinite false =>
      exact (cmp_self_eq_eq _).trans (cmp_self_eq_eq _).symm
  | .infinite true, .infinite false | .infinite false, .infinite true => simp [band] at h
  | .infinite true, .finite .. | .infinite false, .finite .. => simp [band] at h
  | .finite .., .infinite true | .finite .., .infinite false => simp [band] at h
  | .nan, .infinite true | .nan, .infinite false | .nan, .finite .. => simp [band] at h
  | .infinite true, .nan | .infinite false, .nan | .finite .., .nan => simp [band] at h

/-- Values compare as what they stand for. -/
theorem compare_eq_reading (a b : Value) : a.compare b = a.reading.compare b.reading := by
  rw [compare_eq_band_then_rational]
  rcases Nat.lt_trichotomy a.band b.band with h | h | h
  · rw [reading_compare_of_band_lt h, Nat.compare_eq_lt.2 h]
    rfl
  · rw [reading_compare_of_band_eq h, Nat.compare_eq_eq.2 h, cmp_eq_compare]
    rfl
  · rw [← Reading.compare_swap, reading_compare_of_band_lt h, Nat.compare_eq_gt.2 h]
    rfl

end Value

/-! ### Words -/

namespace Format

variable (f : Format)

/-- The highest bit of a word. -/
def signField (word : Nat) : Nat := word / 2 ^ (f.fractionBits + f.exponentBits) % 2

/-- The bits below the sign. -/
def exponentField (word : Nat) : Nat := word / 2 ^ f.fractionBits % 2 ^ f.exponentBits

/-- The lowest bits of a word. -/
def fractionField (word : Nat) : Nat := word % 2 ^ f.fractionBits

/-- What is taken from the exponent field to get the exponent. -/
def bias : ℤ := 2 ^ (f.exponentBits - 1) - 1

/-- What a word stands for. The largest exponent field marks infinities and what is no number; with
    the smallest one, the fraction has no leading one. -/
def reading (word : Nat) : Reading :=
  let fraction : ℚ := f.fractionField word / 2 ^ f.fractionBits
  let sign : ℚ := (-1) ^ f.signField word
  if f.exponentField word = 2 ^ f.exponentBits - 1 then
    if f.fractionField word ≠ 0 then .nan
    else if f.signField word = 0 then .number ⊤ else .number ⊥
  else if f.exponentField word = 0 then
    .number ((sign * (fraction * 2 ^ (1 - f.bias)) : ℚ) : WithTop ℚ)
  else
    .number ((sign * ((1 + fraction) * 2 ^ (f.exponentField word - f.bias)) : ℚ) : WithTop ℚ)

theorem isNegative_eq (word : Nat) : f.isNegative word = decide (f.signField word = 1) := by
  rw [isNegative, Nat.testBit_eq_decide_div_mod_eq, signField]

theorem magnitude_div_hiddenBit (word : Nat) :
    f.magnitude word / f.hiddenBit = f.exponentField word := by
  rw [magnitude, signBit, hiddenBit, Nat.one_shiftLeft, Nat.one_shiftLeft, pow_add,
    Nat.mod_mul_right_div_self, exponentField]

theorem magnitude_mod_hiddenBit (word : Nat) :
    f.magnitude word % f.hiddenBit = f.fractionField word := by
  rw [magnitude, signBit, hiddenBit, Nat.one_shiftLeft, Nat.one_shiftLeft, pow_add,
    Nat.mod_mul_right_mod, fractionField]

/-- A finite value is its sign times its significand, scaled. -/
theorem rational_finite (word significand : Nat) (e : ℤ) :
    (Value.finite (f.isNegative word) significand e).rational
      = (-1) ^ f.signField word * (significand * 2 ^ e) := by
  have hsign : f.signField word = 0 ∨ f.signField word = 1 := by
    rw [signField]
    omega
  rcases hsign with h | h
  · simp [isNegative_eq, h, Value.rational, Value.coefficient, Value.scale]
  · simp [isNegative_eq, h, Value.rational, Value.coefficient, Value.scale]

theorem leastExponent_eq : f.leastExponent = 1 - f.bias - f.fractionBits := by
  rw [leastExponent, bias, Nat.one_shiftLeft]
  push_cast
  ring

/-- Decoding a word gives the value that its fields say. -/
theorem reading_decode (word : Nat) : (f.decode word).reading = f.reading word := by
  have hscale (x : ℚ) (e : ℤ) : x * (2 : ℚ) ^ (e - f.fractionBits)
      = x / 2 ^ f.fractionBits * 2 ^ e := by
    rw [zpow_sub₀ (by norm_num), zpow_natCast]
    ring
  rw [decode, reading, magnitude_div_hiddenBit, magnitude_mod_hiddenBit, topField,
    Nat.one_shiftLeft]
  by_cases htop : f.exponentField word = 2 ^ f.exponentBits - 1
  · simp only [htop, if_true, isNegative_eq]
    by_cases hfraction : f.fractionField word = 0
    · rcases Nat.mod_two_eq_zero_or_one (word / 2 ^ (f.fractionBits + f.exponentBits)) with h | h
      · simp [hfraction, signField, h, Value.reading]
      · simp [hfraction, signField, h, Value.reading]
    · simp [hfraction, Value.reading]
  · simp only [htop, if_false]
    by_cases hzero : f.exponentField word = 0
    · simp only [hzero, if_true, Value.reading, rational_finite, leastExponent_eq, hscale]
    · have hone : ((f.hiddenBit + f.fractionField word : ℕ) : ℚ) / 2 ^ f.fractionBits
          = 1 + f.fractionField word / 2 ^ f.fractionBits := by
        rw [hiddenBit, Nat.one_shiftLeft]
        push_cast
        field_simp
      have hexp : f.leastExponent + f.exponentField word - 1
          = f.exponentField word - f.bias - f.fractionBits := by
        rw [leastExponent_eq]
        ring
      simp only [hzero, if_false, Value.reading, rational_finite, hexp, hscale, hone]

end Format

end SortMerge.Floating

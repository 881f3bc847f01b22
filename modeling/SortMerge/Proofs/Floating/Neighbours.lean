import Mathlib.Data.Rat.Floor
import Mathlib.Order.Interval.Set.Basic
import SortMerge.Floating.Shortest

set_option autoImplicit false

/-! # Intervals of neighbouring magnitudes

The interval of a magnitude begins where the interval of the magnitude below it ends, also where the
exponent steps up and the grid becomes coarser (`lowEnd_owned_succ`). The end that two neighbours
share belongs to the even one of them only. So a number lies in the interval of one magnitude only
(`eq_of_mem_points`). -/

namespace SortMerge.Floating

namespace Interval

variable (i : Interval)

def lowEnd : ℚ := i.low * 2 ^ i.exponent

def highEnd : ℚ := i.high * 2 ^ i.exponent

/-- The numbers in the interval. -/
def points : Set ℚ :=
  if i.closed then Set.Icc i.lowEnd i.highEnd else Set.Ioo i.lowEnd i.highEnd

variable {i} {x : ℚ}

theorem mem_Icc_of_mem_points (h : x ∈ i.points) : x ∈ Set.Icc i.lowEnd i.highEnd := by
  rw [points] at h
  split at h
  · exact h
  · exact Set.Ioo_subset_Icc_self h

theorem mem_Ioo_of_mem_points (hclosed : i.closed = false) (h : x ∈ i.points) :
    x ∈ Set.Ioo i.lowEnd i.highEnd := by
  rwa [points, hclosed] at h

end Interval

namespace Format

variable (f : Format)

/-! ## The parts of a finite magnitude -/

theorem hiddenBit_pos : 0 < f.hiddenBit := by
  rw [hiddenBit, Nat.one_shiftLeft]
  exact Nat.two_pow_pos _

theorem signBit_pos : 0 < f.signBit := by
  rw [signBit, Nat.one_shiftLeft]
  exact Nat.two_pow_pos _

theorem field_lt_topField {a : Nat} (h : a < f.infinity) : a / f.hiddenBit < f.topField := by
  rw [Nat.div_lt_iff_lt_mul f.hiddenBit_pos]
  exact h

/-- Beyond the finite words there is one exponent field only. -/
theorem field_of_not_isFinite {word : Nat} (h : f.isFinite word = false) :
    f.magnitude word / f.hiddenBit = f.topField := by
  have hlow : f.topField ≤ f.magnitude word / f.hiddenBit := by
    rw [Nat.le_div_iff_mul_le f.hiddenBit_pos]
    exact Nat.le_of_not_lt (of_decide_eq_false h)
  have hhigh : f.magnitude word / f.hiddenBit < 1 <<< f.exponentBits := by
    have hproduct : f.signBit = 1 <<< f.exponentBits * f.hiddenBit := by
      rw [signBit, hiddenBit, Nat.one_shiftLeft, Nat.one_shiftLeft, Nat.one_shiftLeft, Nat.pow_add,
        Nat.mul_comm]
    rw [Nat.div_lt_iff_lt_mul f.hiddenBit_pos, ← hproduct]
    exact Nat.mod_lt _ f.signBit_pos
  rw [topField] at hlow ⊢
  omega

/-- The significand of a magnitude. -/
def significand (a : Nat) : Nat :=
  if a / f.hiddenBit = 0 then a % f.hiddenBit else f.hiddenBit + a % f.hiddenBit

/-- The exponent of a magnitude. The two lowest exponent fields share the finest grid. -/
def exponent (a : Nat) : Int := f.leastExponent + (a / f.hiddenBit - 1 : Nat)

theorem decode_of_isFinite {word : Nat} (h : f.isFinite word = true) :
    f.decode word = .finite (f.isNegative word) (f.significand (f.magnitude word))
      (f.exponent (f.magnitude word)) := by
  have hlt := f.field_lt_topField (of_decide_eq_true h)
  rw [decode, if_neg (Nat.ne_of_lt hlt), significand, exponent]
  by_cases hzero : f.magnitude word / f.hiddenBit = 0
  · rw [if_pos hzero, if_pos hzero, hzero]
    simp
  · have hfield : ((f.magnitude word / f.hiddenBit - 1 : Nat) : Int)
        = (f.magnitude word / f.hiddenBit : Nat) - 1 :=
      Int.natCast_pred_of_pos (Nat.pos_of_ne_zero hzero)
    rw [if_neg hzero, if_neg hzero, hfield, ← Int.add_sub_assoc]

/-- The significand has the width of the format. -/
theorem significand_lt (a : Nat) : f.significand a < 2 * f.hiddenBit := by
  have hmod := Nat.mod_lt a f.hiddenBit_pos
  rw [significand]
  split <;> omega

/-- Only zero has no significand. -/
theorem eq_zero_of_significand {a : Nat} (h : f.significand a = 0) : a = 0 := by
  have hpos := f.hiddenBit_pos
  have hsplit := Nat.div_add_mod' a f.hiddenBit
  rw [significand] at h
  split at h
  · next hfield =>
      rw [hfield, h] at hsplit
      omega
  · omega

/-- A word of the format's width is its sign and its magnitude. -/
theorem eq_of_isNegative_of_magnitude {f : Format} {v w : Nat} (hv : v < 2 * f.signBit)
    (hw : w < 2 * f.signBit) (hsign : f.isNegative v = f.isNegative w)
    (hmagnitude : f.magnitude v = f.magnitude w) : v = w := by
  have hbit (word : Nat) (h : word < 2 * f.signBit) : word / f.signBit < 2 := by
    rwa [Nat.div_lt_iff_lt_mul f.signBit_pos]
  have hnegative (word : Nat) : f.isNegative word = decide (word / f.signBit % 2 = 1) := by
    rw [isNegative, Nat.testBit_eq_decide_div_mod_eq, signBit, Nat.one_shiftLeft]
  rw [hnegative, hnegative, decide_eq_decide, Nat.mod_eq_of_lt (hbit v hv),
    Nat.mod_eq_of_lt (hbit w hw)] at hsign
  have hbits (x y : Nat) (hx : x < 2) (hy : y < 2) (h : x = 1 ↔ y = 1) : x = y := by omega
  have hsame := hbits _ _ (hbit v hv) (hbit w hw) hsign
  rw [← Nat.div_add_mod' v f.signBit, ← Nat.div_add_mod' w f.signBit, hsame]
  exact congrArg _ hmagnitude

/-! ## One exponent field -/

section Field

variable {q r : Nat} (hr : r < f.hiddenBit)
include hr

theorem field_mul_add : (q * f.hiddenBit + r) / f.hiddenBit = q := by
  rw [Nat.mul_comm, Nat.mul_add_div f.hiddenBit_pos, Nat.div_eq_of_lt hr, Nat.add_zero]

theorem significand_mul_add :
    f.significand (q * f.hiddenBit + r) = if q = 0 then r else f.hiddenBit + r := by
  rw [significand, f.field_mul_add hr, Nat.mul_add_mod_of_lt hr]

theorem exponent_mul_add :
    f.exponent (q * f.hiddenBit + r) = f.leastExponent + (q - 1 : Nat) := by
  rw [exponent, f.field_mul_add hr]

end Field

/-! ## Ends -/

/-- The interval of a magnitude. -/
def owned (a : Nat) : Interval := f.interval (f.significand a) (f.exponent a)

/-- The upper end is half a place above the value. -/
theorem highEnd_interval (s : Nat) (e : Int) :
    (f.interval s e).highEnd = (4 * s + 2) * 2 ^ (e - 2) := by
  simp [Interval.highEnd, interval]

/-- The lower end is half a place below the value, except below a power of two. -/
theorem lowEnd_interval_succ {s : Nat} {e : Int} (h : s + 1 = f.hiddenBit → e ≤ f.leastExponent) :
    (f.interval (s + 1) e).lowEnd = (4 * s + 2) * 2 ^ (e - 2) := by
  have hlow : (f.interval (s + 1) e).low = 4 * s + 2 := by
    simp only [interval]
    split
    · next hnarrow =>
        simp only [Bool.and_eq_true, beq_iff_eq, decide_eq_true_eq] at hnarrow
        exact absurd (h hnarrow.1) (by omega)
    · omega
  have hexponent : (f.interval (s + 1) e).exponent = e - 2 := rfl
  rw [Interval.lowEnd, hlow, hexponent]
  push_cast
  rfl

/-- Below a power of two the lower end is a quarter of a place below the value. -/
theorem lowEnd_interval_hiddenBit {e : Int} (h : f.leastExponent < e) :
    (f.interval f.hiddenBit e).lowEnd = (4 * f.hiddenBit - 1) * 2 ^ (e - 2) := by
  have hpos := f.hiddenBit_pos
  have hlow : (f.interval f.hiddenBit e).low = 4 * f.hiddenBit - 1 := by simp [interval, h]
  have hexponent : (f.interval f.hiddenBit e).exponent = e - 2 := rfl
  rw [Interval.lowEnd, hlow, hexponent, Nat.cast_sub (by omega)]
  push_cast
  rfl

/-- Inside a field the next magnitude is one significand further on the same grid. -/
theorem lowEnd_owned_same_field {q r : Nat} (h : r + 1 < f.hiddenBit) :
    (f.owned (q * f.hiddenBit + (r + 1))).lowEnd = (f.owned (q * f.hiddenBit + r)).highEnd := by
  have hr : r < f.hiddenBit := by omega
  rw [owned, owned, highEnd_interval, f.significand_mul_add hr, f.exponent_mul_add hr,
    f.significand_mul_add h, f.exponent_mul_add h]
  by_cases hq : q = 0
  · rw [if_pos hq, if_pos hq, lowEnd_interval_succ]
    exact fun heq => absurd heq (by omega)
  · rw [if_neg hq, if_neg hq, ← Nat.add_assoc, lowEnd_interval_succ]
    exact fun heq => absurd heq (by omega)

/-- From one field to the next the significand falls to the hidden bit alone, and the grid is twice
    as coarse, except above the lowest field. -/
theorem lowEnd_owned_next_field {q r : Nat} (h : r + 1 = f.hiddenBit) :
    (f.owned ((q + 1) * f.hiddenBit + 0)).lowEnd = (f.owned (q * f.hiddenBit + r)).highEnd := by
  have hr : r < f.hiddenBit := by omega
  rw [owned, owned, highEnd_interval, f.significand_mul_add hr, f.exponent_mul_add hr,
    f.significand_mul_add f.hiddenBit_pos, f.exponent_mul_add f.hiddenBit_pos, if_neg (by omega),
    Nat.add_zero, Nat.add_sub_cancel]
  by_cases hq : q = 0
  · rw [if_pos hq, hq, ← h, lowEnd_interval_succ]
    simp
  · have hsteps : (q : Int) = (q - 1 : Nat) + 1 := by omega
    have hdouble : (2 : ℚ) ^ (f.leastExponent + (((q - 1 : Nat) : Int) + 1) - 2)
        = 2 * 2 ^ (f.leastExponent + ((q - 1 : Nat) : Int) - 2) := by
      rw [← zpow_one_add₀ (by norm_num)]
      congr 1
      omega
    rw [if_neg hq, lowEnd_interval_hiddenBit f (by omega), hsteps, hdouble, ← h]
    push_cast
    ring

/-- An interval begins where the one below it ends. -/
theorem lowEnd_owned_succ (a : Nat) : (f.owned (a + 1)).lowEnd = (f.owned a).highEnd := by
  have hmod := Nat.mod_lt a f.hiddenBit_pos
  rw [← Nat.div_add_mod' a f.hiddenBit]
  by_cases hnext : a % f.hiddenBit + 1 < f.hiddenBit
  · rw [Nat.add_assoc]
    exact f.lowEnd_owned_same_field hnext
  · have hlast : a % f.hiddenBit + 1 = f.hiddenBit := by omega
    have hcarry : a / f.hiddenBit * f.hiddenBit + a % f.hiddenBit + 1
        = (a / f.hiddenBit + 1) * f.hiddenBit + 0 := by
      rw [Nat.add_one_mul]
      omega
    rw [hcarry]
    exact f.lowEnd_owned_next_field hlast

theorem lowEnd_owned_lt_highEnd (a : Nat) : (f.owned a).lowEnd < (f.owned a).highEnd := by
  have hlow : (f.owned a).low < (f.owned a).high := by
    simp only [owned, interval]
    split <;> omega
  have hcast : ((f.owned a).low : ℚ) < (f.owned a).high := by exact_mod_cast hlow
  exact mul_lt_mul_of_pos_right hcast (zpow_pos (by norm_num) _)

theorem strictMono_lowEnd_owned : StrictMono fun a => (f.owned a).lowEnd := by
  refine strictMono_nat_of_lt_succ fun a => ?_
  rw [lowEnd_owned_succ]
  exact f.lowEnd_owned_lt_highEnd a

/-! ## No number in two intervals -/

/-- The interval of an even magnitude has its ends, that of an odd one has not. -/
theorem closed_owned (hfraction : 0 < f.fractionBits) (a : Nat) :
    (f.owned a).closed = decide (a % 2 = 0) := by
  have heven : f.hiddenBit % 2 = 0 := by
    rw [hiddenBit, Nat.one_shiftLeft, ← Nat.succ_pred_eq_of_pos hfraction, Nat.pow_succ,
      Nat.mul_mod_left]
  have hparity : f.significand a % 2 = a % 2 := by
    have hsplit := Nat.div_add_mod' a f.hiddenBit
    have hmul : a / f.hiddenBit * f.hiddenBit % 2 = 0 := by
      rw [Nat.mul_mod, heven, Nat.mul_zero, Nat.zero_mod]
    rw [significand]
    split <;> omega
  rw [← hparity]
  rfl

/-- A number in the interval of a magnitude is in that of no larger one. -/
theorem not_mem_points_of_lt (hfraction : 0 < f.fractionBits) {a b : Nat} (hlt : a < b) {x : ℚ}
    (ha : x ∈ (f.owned a).points) : x ∉ (f.owned b).points := by
  intro hb
  have hle := (Interval.mem_Icc_of_mem_points ha).2
  have hge := (Interval.mem_Icc_of_mem_points hb).1
  rw [← lowEnd_owned_succ] at hle
  by_cases hnext : b = a + 1
  · -- the shared end belongs to one of them only
    rw [hnext] at hb hge
    rcases Nat.mod_two_eq_zero_or_one a with heven | hodd
    · have hopen : (f.owned (a + 1)).closed = false := by
        rw [f.closed_owned hfraction, decide_eq_false_iff_not]
        omega
      exact absurd (Interval.mem_Ioo_of_mem_points hopen hb).1 (not_lt.2 hle)
    · have hopen : (f.owned a).closed = false := by
        rw [f.closed_owned hfraction, decide_eq_false_iff_not]
        omega
      have hstrict := (Interval.mem_Ioo_of_mem_points hopen ha).2
      rw [← lowEnd_owned_succ] at hstrict
      exact absurd hstrict (not_lt.2 hge)
  · have hgap := f.strictMono_lowEnd_owned (show a + 1 < b by omega)
    exact absurd (hge.trans hle) (not_le.2 hgap)

/-- A number is in the interval of one magnitude only. -/
theorem eq_of_mem_points (hfraction : 0 < f.fractionBits) {a b : Nat} {x : ℚ}
    (ha : x ∈ (f.owned a).points) (hb : x ∈ (f.owned b).points) : a = b := by
  rcases Nat.lt_trichotomy a b with h | h | h
  · exact absurd hb (f.not_mem_points_of_lt hfraction h ha)
  · exact h
  · exact absurd ha (f.not_mem_points_of_lt hfraction h hb)

/-- Zero is in the interval of the magnitude zero. -/
theorem zero_mem_points (hfraction : 0 < f.fractionBits) : (0 : ℚ) ∈ (f.owned 0).points := by
  have hlow : (f.owned 0).lowEnd = 0 := by
    have hzero : (f.owned 0).low = 0 := by
      have hne : ¬ 0 = f.hiddenBit := Nat.ne_of_lt f.hiddenBit_pos
      simp [owned, significand, interval, hne]
    rw [Interval.lowEnd, hzero, Nat.cast_zero, zero_mul]
  have hclosed : (f.owned 0).closed = true := by rw [f.closed_owned hfraction]; rfl
  have hhigh := f.lowEnd_owned_lt_highEnd 0
  rw [hlow] at hhigh
  rw [Interval.points, if_pos hclosed, hlow]
  exact ⟨le_rfl, hhigh.le⟩

end Format

end SortMerge.Floating

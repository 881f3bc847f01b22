import SortMerge.Proofs.Floating.Whole
import SortMerge.Scalar

set_option autoImplicit false

/-! # The order of scalars

`Scalar.compare` has a rule for each kind, one across all numbers, and one by kind for everything
else. Together they make a total preorder, in which numbers stand by their exact values. -/

namespace SortMerge.Scalar

/-! ## A total preorder

The order is written as a lexicographic order of parts that belong to one scalar each: first the
`place` of its kind, with all kinds of numbers in one place, then its value as each kind. A scalar
has a fixed value as every kind but its own, so at most one part after the place decides. -/

/-! ### Parts -/

/-- The place of a scalar's kind in the order, the same one for all numbers. -/
def place : Scalar → Nat
  | .null => 0
  | .bool _ => 1
  | .int16 _ | .int32 _ | .int64 _ | .float32 _ | .float64 _ => 2
  | .text _ => 7
  | .binary _ => 8
  | .timestamp _ => 9

/-- The value of a boolean. -/
def asBool : Scalar → Bool
  | .bool b => b
  | _ => false

/-- The value of a number. -/
def asNumber (s : Scalar) : Floating.Value := s.number?.getD .nan

/-- The value of a text. -/
def asText : Scalar → String
  | .text s => s
  | _ => ""

/-- The value of a byte string. -/
def asBytes : Scalar → List UInt8
  | .binary bs => bs
  | _ => []

/-- The value of a timestamp. -/
def asMicros : Scalar → Int
  | .timestamp t => t.toInt
  | _ => 0

/-! ### The lexicographic form -/

/-- The order by parts. -/
def lexCompare : Scalar → Scalar → Ordering :=
  compareLex (compareOn place) (compareLex (compareOn asBool) (compareLex (compareOn asNumber)
    (compareLex (compareOn asText) (compareLex (compareOn asBytes) (compareOn asMicros)))))

theorem compare_eq_lexCompare (a b : Scalar) : a.compare b = lexCompare a b := by
  -- scalars of unlike kinds are settled by their places, and others by the part of their kind
  cases a <;> cases b <;>
    simp [compare, lexCompare, compareLex, compareOn, place, asBool, asNumber, asText, asBytes,
      asMicros, number?, kind, Kind.rank, Nat.compare_eq_ite_lt]

instance : Std.TransCmp Scalar.compare := by
  have h : Scalar.compare = lexCompare := by
    funext a b
    exact compare_eq_lexCompare a b
  rw [h, lexCompare]
  infer_instance

/-! ### The laws of the order -/

/-- Scalars that compare equal stand at one place, and they are the same boolean if they are any. -/
theorem place_eq_and_asBool_eq_of_compare_eq {a b : Scalar} (h : a.compare b = .eq) :
    a.place = b.place ∧ a.asBool = b.asBool := by
  rw [compare_eq_lexCompare, lexCompare] at h
  simp only [compareLex_eq_eq, compareOn] at h
  obtain ⟨hplace, hbool, -⟩ := h
  exact ⟨Nat.compare_eq_eq.1 hplace, Std.LawfulEqOrd.eq_of_compare hbool⟩

/-- Comparing is a total preorder on scalars of all kinds: a scalar equals itself, exchanging the
    operands reverses the outcome, "not above" is transitive, and scalars that compare equal compare
    alike with every third one, on either side. -/
theorem compare_total_preorder (a b c : Scalar) :
    a.compare a = .eq ∧ b.compare a = (a.compare b).swap ∧
      (a.compare b ≠ .gt → b.compare c ≠ .gt → a.compare c ≠ .gt) ∧
      (a.compare b = .eq → a.compare c = b.compare c ∧ c.compare a = c.compare b) := by
  refine ⟨Std.ReflCmp.compare_self, Std.OrientedCmp.eq_swap, ?_, ?_⟩
  · intro hab hbc
    rw [ne_eq, ← Ordering.isLE_iff_ne_gt] at hab hbc ⊢
    exact Std.TransCmp.isLE_trans hab hbc
  · intro hab
    exact ⟨Std.TransCmp.congr_left hab, Std.TransCmp.congr_right hab⟩

/-! ## Numbers compare exactly

Scalars of the five numeric kinds compare as the numbers that they stand for, whatever their widths:
an integer stands for itself, a floating-point word for what its fields say. Nothing is rounded on
the way, which between an integer and a float takes some care: no integer is ever turned into a
float, and a float's whole part is turned into an integer only where it fits. -/

open Floating (Reading Value)

/-- What a scalar of a numeric kind stands for. -/
def reading? : Scalar → Option Reading
  | .int16 v => some (.number ((v.toInt : ℚ) : WithTop ℚ))
  | .int32 v => some (.number ((v.toInt : ℚ) : WithTop ℚ))
  | .int64 v => some (.number ((v.toInt : ℚ) : WithTop ℚ))
  | .float32 w => some (Floating.binary32.reading w.toNat)
  | .float64 w => some (Floating.binary64.reading w.toNat)
  | _ => none

/-- The integer of a scalar of an integer kind, in 64 bits. -/
def widened? : Scalar → Option Int64
  | .int16 v => some v.toInt64
  | .int32 v => some v.toInt64
  | .int64 v => some v
  | _ => none

/-- The value of a scalar of a floating-point kind. -/
def float? : Scalar → Option Value
  | .float32 w => some (Floating.binary32.decode w.toNat)
  | .float64 w => some (Floating.binary64.decode w.toNat)
  | _ => none

variable {a b : Scalar}

theorem reading?_eq (a : Scalar) : a.reading? = a.number?.map Value.reading := by
  have hint (i : Int) : (Value.ofInt i).reading = .number ((i : ℚ) : WithTop ℚ) := by
    rw [← Value.rational_ofInt]
    rfl
  cases a with
  | int16 v | int32 v | int64 v => simp [reading?, number?, hint]
  | float32 w | float64 w => simp [reading?, number?, Floating.Format.reading_decode]
  | _ => rfl

theorem number?_of_widened? {i : Int64} (h : a.widened? = some i) :
    a.number? = some (.ofInt i.toInt) := by
  cases a <;> cases h <;> simp [number?]

theorem number?_of_float? {v : Value} (h : a.float? = some v) : a.number? = some v := by
  cases a <;> cases h <;> rfl

theorem compare_of_number? {v w : Value} (ha : a.number? = some v) (hb : b.number? = some w) :
    a.compare b = v.compare w := by
  unfold compare
  split
  case h_5 => simp only [ha, hb]
  all_goals cases ha

/-- Numeric scalars compare as what they stand for. Between an integer and a float, comparing by
    whole parts comes to the same, and every whole part that is converted for it fits its width. -/
theorem compare_numbers {x y : Reading} (ha : a.reading? = some x) (hb : b.reading? = some y) :
    a.compare b = x.compare y ∧
      ∀ i v, a.widened? = some i → b.float? = some v →
        a.compare b = v.compareByWhole i ∧ b.compare a = (v.compareByWhole i).swap ∧
          (v.isAbove = false → v.isBelow = false →
            (Int64.ofInt v.wholePart).toInt = v.wholePart) := by
  rw [reading?_eq, Option.map_eq_some_iff] at ha hb
  obtain ⟨n, hn, rfl⟩ := ha
  obtain ⟨m, hm, rfl⟩ := hb
  refine ⟨?_, fun i v hi hv => ?_⟩
  · rw [compare_of_number? hn hm, Value.compare_eq_reading]
  · have hcompare : a.compare b = v.compareByWhole i := by
      rw [compare_of_number? (number?_of_widened? hi) (number?_of_float? hv),
        Value.compareByWhole_eq]
    refine ⟨hcompare, ?_, Value.toInt_ofInt_wholePart⟩
    rw [← hcompare]
    exact Std.OrientedCmp.eq_swap

/-- The least natural number that is no float is above the float next to it, whose whole part fits
    64 bits. -/
theorem compare_numbers_beside_float :
    (Scalar.float64 0x4340000000000000).reading?
        = some (.number ((9007199254740992 : ℚ) : WithTop ℚ)) ∧
      (Scalar.int64 9007199254740993).compare (.float64 0x4340000000000000) = .gt ∧
      (Int64.ofInt (Floating.binary64.decode 0x4340000000000000).wholePart).toInt
        = (Floating.binary64.decode 0x4340000000000000).wholePart := by
  have hint : (Scalar.int64 9007199254740993).reading?
      = some (.number ((9007199254740993 : ℚ) : WithTop ℚ)) := by
    have htoInt : (9007199254740993 : Int64).toInt = 9007199254740993 := by decide
    simp [reading?, htoInt]
  have hfloat : (Scalar.float64 0x4340000000000000).reading?
      = some (.number ((9007199254740992 : ℚ) : WithTop ℚ)) := by
    have hword : (4845873199050653696 : UInt64).toNat = 4845873199050653696 := by decide
    norm_num [reading?, Floating.Format.reading, Floating.Format.exponentField,
      Floating.Format.fractionField, Floating.Format.signField, Floating.Format.bias,
      Floating.binary64, hword]
  obtain ⟨hcompare, hwhole⟩ := compare_numbers hint hfloat
  obtain ⟨-, -, hfits⟩ := hwhole _ _ rfl rfl
  refine ⟨hfloat, hcompare.trans ?_, hfits (by decide +kernel) (by decide +kernel)⟩
  exact (Floating.cmp_coe _ _).trans ((cmp_eq_gt_iff _ _).2 (by norm_num))

end SortMerge.Scalar

import SortMerge.Floating.Format
import SortMerge.Numeral

set_option autoImplicit false

/-! # The shortest decimal that reads back

Every finite value of a binary format owns an interval of reals: those that round to it. The text of
the value is the decimal with the fewest digits inside that interval, and of several such decimals
the one nearest to the value. `Format.shortest` finds it by testing, for one digit, two digits and
so on, the two neighbours of the value on that decimal grid; if any point of a grid lies in the
interval then so does one of these two. All comparisons are between natural numbers.

How the digits are then laid out is a decision of whoever writes them and is held in a `Layout`
record. -/

namespace SortMerge.Floating

/-! ## Digits -/

/-- The positive decimal number `coefficient · 10^exponent`. -/
structure Decimal where
  coefficient : Nat
  exponent : Int
  deriving DecidableEq, Repr, Inhabited

/-- What to take of two equally near decimals. -/
inductive Tie where
  | even
  | up
  deriving DecidableEq, Repr

/-- The interval of reals that round to `significand · 2^exponent`, in quarters of the last place.
    Its ends belong to it when the significand is even. -/
structure Interval where
  low : Nat
  value : Nat
  high : Nat
  exponent : Int
  closed : Bool

/-- The interval of a positive value. Below a power of two the grid is twice as fine, so there the
    lower half of the interval is half as wide. -/
def Format.interval (f : Format) (significand : Nat) (exponent : Int) : Interval :=
  let narrow := significand == f.hiddenBit && decide (f.leastExponent < exponent)
  { low := if narrow then 4 * significand - 1 else 4 * significand - 2
    value := 4 * significand
    high := 4 * significand + 2
    exponent := exponent - 2
    closed := significand % 2 == 0 }

namespace Interval

/-- The factor that turns multiples of `2^exponent` and `10^k` into natural numbers: the interval's
    own unit and the unit of the decimal grid, both multiplied up. -/
def units (i : Interval) (k : Int) : Nat × Nat :=
  let twos := 1 <<< i.exponent.natAbs
  let tens := Nat.pow 10 k.natAbs
  match decide (i.exponent < 0), decide (k < 0) with
  | false, false => (twos, tens)
  | true, false => (1, tens * twos)
  | false, true => (twos * tens, 1)
  | true, true => (tens, twos)

/-- Whether `point`, in the unit that `unit` measures, lies in the interval. -/
def contains (i : Interval) (unit point : Nat) : Bool :=
  if i.closed then decide (i.low * unit ≤ point) && decide (point ≤ i.high * unit)
  else decide (i.low * unit < point) && decide (point < i.high * unit)

/-- The best point of the grid of multiples of `10^k` inside the interval, if it has one. -/
def onGrid (i : Interval) (tie : Tie) (k : Int) : Option Decimal :=
  let (unit, step) := i.units k
  let below := i.value * unit / step
  let rest := i.value * unit % step
  let hitBelow := i.contains unit (below * step)
  let hitAbove := i.contains unit ((below + 1) * step)
  let takeAbove :=
    match Ord.compare (2 * rest) step, tie with
    | .lt, _ => false
    | .gt, _ => true
    | .eq, .even => below % 2 == 1
    | .eq, .up => true
  match hitBelow, hitAbove with
  | false, false => none
  | true, false => some ⟨below, k⟩
  | false, true => some ⟨below + 1, k⟩
  | true, true => some ⟨if takeAbove then below + 1 else below, k⟩

/-- The decimal exponent of the value: the largest `k` with `10^k` not above it. The guess from the
    binary exponent is at most one too small. -/
def magnitude (i : Interval) : Int :=
  let guess := ((i.value.log2 : Int) + i.exponent) * 30103 / 100000
  let (unit, step) := i.units (guess + 1)
  if step ≤ i.value * unit then guess + 1 else guess

end Interval

/-- The same decimal without a zero at its end. -/
def Decimal.trimmed (d : Decimal) : Decimal :=
  if d.coefficient % 10 = 0 then ⟨d.coefficient / 10, d.exponent + 1⟩ else d

/-- The shortest decimal that reads back as the positive value `significand · 2^exponent`. Seventeen
    digits always suffice in the formats of this library. -/
def Format.shortest (f : Format) (tie : Tie) (significand : Nat) (exponent : Int) : Decimal :=
  let i := f.interval significand exponent
  let top := i.magnitude
  (((List.range 17).findSome? fun n : Nat => i.onGrid tie (top - n)).getD ⟨1, top⟩).trimmed

/-! ## Layout -/

/-- How the digits of a value are laid out: the decimal exponents `least` to `most` are written in
    full, the others with an exponent. -/
structure Layout where
  least : Int
  most : Int
  tie : Tie

namespace Layout

/-- A number of digits, padded with zeros on the left. -/
def padded (width n : Nat) : List Char :=
  let ds := Numeral.digits n
  List.replicate (width - ds.length) '0' ++ ds

/-- The numeral of a positive decimal. One written in full always shows a fraction. -/
def place (s : Layout) (negative : Bool) (d : Decimal) : Numeral :=
  let ds := Numeral.digits d.coefficient
  let exponent := (ds.length : Int) - 1 + d.exponent
  if s.least ≤ exponent ∧ exponent ≤ s.most then
    if 0 ≤ d.exponent then
      ⟨negative, d.coefficient * Nat.pow 10 d.exponent.natAbs, ['0'], none⟩
    else
      let places := d.exponent.natAbs
      let unit := Nat.pow 10 places
      ⟨negative, d.coefficient / unit, padded places (d.coefficient % unit), none⟩
  else
    ⟨negative, Numeral.natOfDigits (ds.take 1), ds.drop 1, some exponent⟩

/-- The numeral of a finite value; none for infinities and for what is no number. -/
def numeral (s : Layout) (f : Format) : Value → Option Numeral
  | .finite negative 0 _ => some ⟨negative, 0, ['0'], none⟩
  | .finite negative m e => some (s.place negative (f.shortest s.tie m e))
  | _ => none

end Layout

end SortMerge.Floating

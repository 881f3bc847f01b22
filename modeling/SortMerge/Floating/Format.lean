set_option autoImplicit false

/-! # Binary floating-point formats

A binary interchange format stores a sign, an exponent field and a fraction field in one word. This
module reads such a word as an exact number (`Format.decode`), orders the exact numbers
(`Value.compare`) and rounds a ratio of natural numbers to the nearest word (`Format.nearest`).
Nothing here goes through machine arithmetic: every step is integer arithmetic, so the order has no
rounding and the rounding happens exactly once. -/

namespace SortMerge.Floating

/-! ## Exact values -/

/-- What a word of a binary format stands for: a finite value is `±significand · 2^exponent`. -/
inductive Value where
  | nan
  | infinite (negative : Bool)
  | finite (negative : Bool) (significand : Nat) (exponent : Int)
  deriving DecidableEq, Repr, Inhabited

namespace Value

def ofInt (i : Int) : Value :=
  .finite (decide (i < 0)) i.natAbs 0

/-- The four bands of the numeric order: below every number, the numbers, above every number, and
    last the values that are no numbers. -/
def band : Value → Nat
  | .infinite true => 0
  | .finite .. => 1
  | .infinite false => 2
  | .nan => 3

/-- The signed significand of a finite value; the other values count as zero inside their band. -/
def coefficient : Value → Int
  | .finite true m _ => -(m : Int)
  | .finite false m _ => m
  | _ => 0

/-- The power of two that scales the coefficient. -/
def scale : Value → Int
  | .finite _ _ e => e
  | _ => 0

/-- The coefficient at the scale `e`, which must not exceed the value's own scale. -/
def aligned (v : Value) (e : Int) : Int :=
  v.coefficient <<< (v.scale - e).toNat

/-- The numeric order: bands first, and within a band the exact values, brought to the smaller of
    the two scales. A value that is no number is above every number and equal to its like. -/
def compare (a b : Value) : Ordering :=
  let e := min a.scale b.scale
  (Ord.compare a.band b.band).then (Ord.compare (a.aligned e) (b.aligned e))

end Value

/-! ## Words -/

/-- A binary interchange format, given by the widths of its fraction and exponent fields. -/
structure Format where
  fractionBits : Nat
  exponentBits : Nat
  deriving DecidableEq, Repr

def binary32 : Format := ⟨23, 8⟩

def binary64 : Format := ⟨52, 11⟩

namespace Format

/-- The leading one of a significand, which a word leaves out. It is also the number of fractions
    that go with one exponent field. -/
def hiddenBit (f : Format) : Nat := 1 <<< f.fractionBits

/-- The sign bit of a word, which is also the number of magnitudes. -/
def signBit (f : Format) : Nat := 1 <<< (f.fractionBits + f.exponentBits)

/-- The exponent field that marks infinities and values that are no numbers. -/
def topField (f : Format) : Nat := 1 <<< f.exponentBits - 1

/-- The exponent of the format's finest grid, on which its smallest values lie. -/
def leastExponent (f : Format) : Int :=
  2 - ((1 <<< (f.exponentBits - 1) : Nat) : Int) - f.fractionBits

def infinity (f : Format) : Nat := f.topField * f.hiddenBit

def isNegative (f : Format) (word : Nat) : Bool :=
  word.testBit (f.fractionBits + f.exponentBits)

def magnitude (f : Format) (word : Nat) : Nat :=
  word % f.signBit

/-- The same magnitude with the given sign. -/
def withSign (f : Format) (negative : Bool) (magnitude : Nat) : Nat :=
  if negative then f.signBit + magnitude else magnitude

/-- The exact value of a word. A zero exponent field drops the leading one of the significand. -/
def decode (f : Format) (word : Nat) : Value :=
  let negative := f.isNegative word
  let field := f.magnitude word / f.hiddenBit
  let fraction := f.magnitude word % f.hiddenBit
  if field = f.topField then
    if fraction = 0 then .infinite negative else .nan
  else if field = 0 then
    .finite negative fraction f.leastExponent
  else
    .finite negative (f.hiddenBit + fraction) (f.leastExponent + field - 1)

/-! ## Rounding to the nearest word -/

/-- The quotient of two natural numbers, rounded to the nearest whole number; a half goes to the
    even neighbour. -/
def divNearest (num den : Nat) : Nat :=
  let q := num / den
  match Ord.compare (2 * (num % den)) den with
  | .lt => q
  | .gt => q + 1
  | .eq => if q % 2 = 0 then q else q + 1

/-- `num / den · 2^(-e)` as a pair of natural numbers. -/
def scaled (num den : Nat) (e : Int) : Nat × Nat :=
  if e < 0 then (num <<< e.natAbs, den) else (num, den <<< e.natAbs)

/-- The exponent of the grid on which the positive ratio `num / den` is rounded: the finest one that
    the significand's width allows. -/
def gridExponent (f : Format) (num den : Nat) : Int :=
  let guess : Int := (num.log2 : Int) - (den.log2 : Int)
  let (n, d) := scaled num den guess
  let top := if n < d then guess - 1 else guess
  max f.leastExponent (top - f.fractionBits)

/-- The magnitude nearest to the ratio `num / den`; beyond the largest finite word it is infinity.
    A significand that rounds up to the next power of two carries into the exponent field by plain
    addition, because neighbouring words are neighbouring values. -/
def nearest (f : Format) (num den : Nat) : Nat :=
  if num = 0 then 0
  else
    let e := f.gridExponent num den
    let (n, d) := scaled num den e
    let steps := (e - f.leastExponent).toNat
    min f.infinity (steps * f.hiddenBit + divNearest n d)

/-- The word nearest to an exact value; a value that is no number has the format's plain one. -/
def encode (f : Format) : Value → Nat
  | .nan => f.infinity + f.hiddenBit / 2
  | .infinite s => f.withSign s f.infinity
  | .finite s m e =>
    f.withSign s (if e < 0 then f.nearest m (1 <<< e.natAbs) else f.nearest (m <<< e.natAbs) 1)

/-- True of the words that stand for finite values. -/
def isFinite (f : Format) (word : Nat) : Bool := f.magnitude word < f.infinity

/-! ## Rounded arithmetic on magnitudes

Products and quotients of non-negative finite words, and decimal fractions, each computed exactly
and rounded once. -/

/-- The significand and the exponent of a finite word; a word that is not finite counts as zero. -/
def parts (f : Format) (word : Nat) : Nat × Int :=
  match f.decode word with
  | .finite _ m e => (m, e)
  | _ => (0, 0)

/-- The magnitude nearest to `num / den · 2^e`. -/
def nearestScaled (f : Format) (num den : Nat) (e : Int) : Nat :=
  if e < 0 then f.nearest num (den <<< e.natAbs) else f.nearest (num <<< e.natAbs) den

def mul (f : Format) (a b : Nat) : Nat :=
  let (m, e) := f.parts a
  let (n, g) := f.parts b
  f.nearestScaled (m * n) 1 (e + g)

/-- The rounded quotient of two magnitudes, the second one not zero. -/
def div (f : Format) (a b : Nat) : Nat :=
  let (m, e) := f.parts a
  let (n, g) := f.parts b
  f.nearestScaled m n (e - g)

/-- The magnitude nearest to a power of ten. -/
def powerOfTen (f : Format) (k : Nat) : Nat := f.nearest (Nat.pow 10 k) 1

/-- The magnitude nearest to `digits · 10^e`. A power so large or so small that the result is
    infinity or zero whatever the digits are is not computed. -/
def nearestDecimal (f : Format) (digits : Nat) (e : Int) : Nat :=
  let top : Int := (Nat.toDigits 10 digits).length + e
  if digits = 0 ∨ 3 * top + f.topField < 0 then 0
  else if f.topField < 3 * top then f.infinity
  else if e < 0 then f.nearest digits (Nat.pow 10 e.natAbs)
  else f.nearest (digits * Nat.pow 10 e.natAbs) 1

end Format

/-! ## Fixed points of the two formats -/

example : binary64.decode 0x3ff0000000000000 = .finite false (1 <<< 52) (-52) := by decide
example : binary64.decode 0x8000000000000001 = .finite true 1 (-1074) := by decide
example : binary64.nearest 1 10 = 0x3fb999999999999a := by decide
example : binary64.nearest (1 <<< 1024) 1 = binary64.infinity := by decide +kernel
example : binary32.nearest 16777217 1 = 0x4b800000 := by decide

end SortMerge.Floating

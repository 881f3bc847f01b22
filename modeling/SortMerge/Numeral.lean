set_option autoImplicit false

/-! # Decimal numerals

A numeral is a decimal number as it is written: sign, whole part, fraction digits and exponent. It
keeps what the value alone forgets, namely whether a fraction or an exponent was written, so that a
reader can tell a whole number from a measured one. `Numeral.chars` writes a numeral and
`Numeral.ofChars?` reads the usual grammar: no leading zero, no bare point, an optional exponent. -/

namespace SortMerge

/-- A decimal number as written. `fraction` holds digit characters; an empty list means that no
    point is written. -/
structure Numeral where
  negative : Bool
  whole : Nat
  fraction : List Char
  exponent : Option Int
  deriving DecidableEq, Repr, Inhabited

namespace Numeral

def ofInt (i : Int) : Numeral :=
  ⟨decide (i < 0), i.natAbs, [], none⟩

def ofNat (n : Nat) : Numeral :=
  ⟨false, n, [], none⟩

/-- A numeral without fraction and exponent stands for a whole number. -/
def isWhole (n : Numeral) : Bool := n.fraction.isEmpty && n.exponent.isNone

/-! ## Writing -/

def digits (n : Nat) : List Char := Nat.toDigits 10 n

/-- The exponent of a numeral; `plus` says whether a sign stands before one that is not negative. -/
def exponentChars (plus : Bool) (e : Int) : List Char :=
  'e' :: (if e < 0 then ['-'] else if plus then ['+'] else []) ++ digits e.natAbs

def chars (plus : Bool) (n : Numeral) : List Char :=
  (if n.negative then ['-'] else []) ++ digits n.whole
    ++ (if n.fraction.isEmpty then [] else '.' :: n.fraction)
    ++ (match n.exponent with
        | none => []
        | some e => exponentChars plus e)

/-! ## Reading -/

/-- The digits at the front of a text and what follows them. -/
def spanDigits (cs : List Char) : List Char × List Char :=
  (cs.takeWhile Char.isDigit, cs.dropWhile Char.isDigit)

/-- The value of a list of digits. -/
def natOfDigits (ds : List Char) : Nat := Nat.ofDigitChars 10 ds 0

/-- A minus sign at the front, and the rest. -/
def splitMinus : List Char → Bool × List Char
  | '-' :: cs => (true, cs)
  | cs => (false, cs)

/-- A point with the digits after it, at least one, and the rest. -/
def splitFraction : List Char → Option (List Char × List Char)
  | '.' :: cs =>
    match spanDigits cs with
    | ([], _) => none
    | (ds, rest) => some (ds, rest)
  | cs => some ([], cs)

/-- The sign of an exponent, and the rest. -/
def splitSign : List Char → Bool × List Char
  | '-' :: cs => (true, cs)
  | '+' :: cs => (false, cs)
  | cs => (false, cs)

/-- The whole text as an exponent, or nothing when the text is empty. -/
def readExponent : List Char → Option (Option Int)
  | [] => some none
  | c :: cs =>
    if c = 'e' ∨ c = 'E' then
      match splitSign cs with
      | (negative, rest) =>
        match spanDigits rest with
        | (d :: ds, []) =>
          let n : Int := natOfDigits (d :: ds)
          some (some (if negative then -n else n))
        | _ => none
    else none

/-- A whole part is a lone zero or starts with another digit. -/
def isWholePart : List Char → Bool
  | [] => false
  | ['0'] => true
  | d :: _ => d != '0'

def ofChars? (cs : List Char) : Option Numeral :=
  let (negative, cs) := splitMinus cs
  let (whole, cs) := spanDigits cs
  if isWholePart whole then
    match splitFraction cs with
    | none => none
    | some (fraction, cs) =>
      (readExponent cs).map fun e => ⟨negative, natOfDigits whole, fraction, e⟩
  else none

example : ofChars? ['-', '1', '2', '.', '5', 'e', '+', '3'] =
    some ⟨true, 12, ['5'], some 3⟩ := by decide
example : ofChars? ['0', '1'] = none := by decide
example : ofChars? ['1', '.'] = none := by decide
example : (Numeral.mk false 1 ['5'] (some 16)).chars true =
    ['1', '.', '5', 'e', '+', '1', '6'] := by decide

end Numeral

end SortMerge

import SortMerge.Doc
import SortMerge.Floating.Format
import SortMerge.Json.Basic

set_option autoImplicit false

/-! # JSON texts as documents

What the parts of a JSON text mean. A numeral without point and exponent is an integer if it fits 64
bits; every other numeral is a binary64 number. A minus sign before zero makes it a float, because
no integer is negative zero. Containers may be nested 127 deep. -/

namespace SortMerge.Json

/-! ## Numbers -/

/-- Appends digits to a number below `2^64` while the result stays there; also the digits left. -/
def clip (n : Nat) : List Char → Nat × List Char
  | [] => (n, [])
  | d :: ds =>
    let next := 10 * n + (d.toNat - '0'.toNat)
    if next < UInt64.size then clip next ds else (n, d :: ds)

/-- A magnitude times a power of ten, with one rounding for each factor taken from the table of
    powers up to `10^308`; none if the result is infinite. -/
def scaleByTen (magnitude : Nat) (exponent : Int) : Option Nat :=
  let f := Floating.binary64
  if 0 ≤ exponent then
    if exponent ≤ 308 then
      let product := f.mul magnitude (f.powerOfTen exponent.natAbs)
      if product < f.infinity then some product else none
    else if magnitude = 0 then some 0
    else none
  else if -308 ≤ exponent then
    some (f.div magnitude (f.powerOfTen exponent.natAbs))
  else if magnitude = 0 then some 0
  else scaleByTen (f.div magnitude (f.powerOfTen 308)) (exponent + 308)
termination_by exponent.natAbs
decreasing_by omega

/-- The binary64 word of a numeral: its leading digits as an integer below `2^64`, rounded, then
    scaled by the power of ten that the other digits and the exponent amount to. -/
def floatOfNumeral (n : Numeral) : Option Nat :=
  let f := Floating.binary64
  let (head, cut) := clip 0 (Numeral.digits n.whole)
  let (significand, rest) := clip head n.fraction
  let shift : Int := cut.length - (n.fraction.length - rest.length : Nat)
  let written := n.exponent.getD 0
  let magnitude :=
    if written.natAbs < 1 <<< 31 then scaleByTen (f.nearest significand 1) (shift + written)
    else if significand ≠ 0 ∧ 0 < written then none
    else some 0
  magnitude.map (f.withSign n.negative)

def docOfNumeral (n : Numeral) : Doc :=
  let float :=
    match floatOfNumeral n with
    | some w => Doc.float w
    | none => Doc.unreadable
  if n.isWhole then
    if n.negative then
      if n.whole = 0 ∨ 1 <<< 63 < n.whole then float else .signed (-(n.whole : Int))
    else if n.whole < UInt64.size then .unsigned n.whole
    else float
  else float

/-! ## Values -/

def docOfText : Option String → Doc
  | some s => .text s
  | none => .unreadable

mutual

/-- What a value means when `levels` more levels of containers may be entered. -/
def toDocWithin : Nat → Json → Doc
  | _, .null => .null
  | _, .bool b => .bool b
  | _, .number n => docOfNumeral n
  | _, .text s => docOfText s
  | 0, .array _ => .unreadable
  | levels + 1, .array items => .list (itemDocs levels items)
  | 0, .object _ => .unreadable
  | levels + 1, .object members => .record (memberDocs levels members)

/-- What the items of an array mean. -/
def itemDocs (levels : Nat) : List Json → List Doc
  | [] => []
  | v :: vs => toDocWithin levels v :: itemDocs levels vs

/-- What the members of an object mean. -/
def memberDocs (levels : Nat) : List (Option String × Json) → List (Doc × Doc)
  | [] => []
  | (k, v) :: ms => (docOfText k, toDocWithin levels v) :: memberDocs levels ms

end

/-- How deep containers may be nested. -/
def depthLimit : Nat := 127

def toDoc (j : Json) : Doc := toDocWithin depthLimit j

def read? (s : String) : Option Doc := (parse? s).map toDoc

end SortMerge.Json

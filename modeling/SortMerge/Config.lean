import SortMerge.Doc
import SortMerge.Json.Reading

set_option autoImplicit false

/-! # Configuration

The settings of an engine, with their defaults, read from JSON or from environment variables. A
variable that does not spell a value of its setting is passed over. -/

namespace SortMerge

/-- The settings of an engine. -/
structure Config where
  /-- Whether it is an error that the right side runs out of tiles. -/
  strictRightExhaustion : Bool := true
  /-- Whether tiles are checked for order before they are merged. -/
  verifySortedInputs : Bool := false
  /-- How many rows to reserve in each position list of an output tile. Joining does not look at it:
      a reservation changes no answer. One that cannot be made, for want of memory or because it
      asks for `2^60` rows and more, is a shortage of memory like any other. What happens then is
      not described here. -/
  positionListCapacity : Nat := 1024
  deriving DecidableEq, Repr, Inhabited

namespace Config

/-! ## Environment -/

def boolOfText? (s : String) : Option Bool :=
  if s = "true" then some true else if s = "false" then some false else none

/-- The natural number below `2^64` that a variable spells: digits, with a plus sign allowed. -/
def natOfText? (s : String) : Option Nat :=
  let ds :=
    match s.toList with
    | '+' :: ds => ds
    | ds => ds
  if !ds.isEmpty && ds.all Char.isDigit then
    let n := Numeral.natOfDigits ds
    if n < UInt64.size then some n else none
  else none

/-- The settings given by environment variables whose names start with `stem`. -/
def ofEnvironment (stem : String) (lookup : String → Option String) : Config :=
  let default : Config := {}
  { strictRightExhaustion :=
      ((lookup (stem ++ "STRICT_RIGHT_EXHAUSTION")).bind boolOfText?).getD
        default.strictRightExhaustion
    verifySortedInputs :=
      ((lookup (stem ++ "VERIFY_SORTED")).bind boolOfText?).getD default.verifySortedInputs
    positionListCapacity :=
      ((lookup (stem ++ "POSITION_LIST_CAPACITY")).bind natOfText?).getD
        default.positionListCapacity }

/-! ## JSON -/

def toJson (c : Config) : Json :=
  .record [("strict_right_exhaustion", .bool c.strictRightExhaustion),
    ("verify_sorted_inputs", .bool c.verifySortedInputs),
    ("position_list_capacity", .ofNat c.positionListCapacity)]

/-- The value of a slot, or the default where the slot is empty. -/
def orDefault {α : Type} (default : α) (read : Doc → Option α) : Option Doc → Option α
  | none => some default
  | some d => read d

/-- The settings that a document spells; each may be missing. -/
def ofDoc? (d : Doc) : Option Config :=
  let default : Config := {}
  match d.slots?
      ["strict_right_exhaustion", "verify_sorted_inputs", "position_list_capacity"] 0 with
  | some [strict, verify, capacity] =>
    match orDefault default.strictRightExhaustion Doc.bool? strict,
      orDefault default.verifySortedInputs Doc.bool? verify,
      orDefault default.positionListCapacity (Doc.nat? 64) capacity with
    | some strict, some verify, some capacity => some ⟨strict, verify, capacity⟩
    | _, _, _ => none
  | _ => none

def ofJson? (s : String) : Option Config := (Json.read? s).bind ofDoc?

end Config

end SortMerge

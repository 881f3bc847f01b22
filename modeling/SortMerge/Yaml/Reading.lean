import SortMerge.Doc
import SortMerge.Numeral
import SortMerge.Yaml.Node

set_option autoImplicit false

/-! # What YAML means

The nodes of a document are read as values: scalars by their look or their tag, collections by their
parts, and an alias as the node that it stands for. -/

namespace SortMerge.Yaml

/-! ## Scalars

A quoted scalar is a text. A plain one is the null, a boolean, an integer or a float if it looks
like one, and a text otherwise. A tag can ask for one of these kinds, and then the scalar has no
value if it does not look like that; the tag of a foreign kind leaves no value at all. -/

/-! ### Words -/

/-- The words for no value. -/
def isNullWord (s : String) : Bool := ["null", "Null", "NULL", "~"].contains s

/-- The words for the truth values. -/
def boolWord? (s : String) : Option Bool :=
  if ["true", "True", "TRUE"].contains s then some true
  else if ["false", "False", "FALSE"].contains s then some false
  else none

/-! ### Integers -/

/-- The value of digits in a base, at least one. -/
def natInBase? (base : Nat) (cs : List Char) : Option Nat :=
  if cs.isEmpty then none
  else
    cs.foldlM (fun n c =>
      (Text.Hex.digitValue? c).bind fun d => if d < base then some (base * n + d) else none) 0

/-- Several digits of which the first is a zero. They spell no integer. -/
def isPadded : List Char → Bool
  | '0' :: c :: cs => (c :: cs).all Char.isDigit
  | _ => false

/-- The number that digits spell, in base ten or in the base that is marked before them. -/
def natOfMarked? : List Char → Option Nat
  | '0' :: 'x' :: cs => natInBase? 16 cs
  | '0' :: 'o' :: cs => natInBase? 8 cs
  | '0' :: 'b' :: cs => natInBase? 2 cs
  | cs => if isPadded cs then none else natInBase? 10 cs

/-- An integer without a minus sign. Up to 128 bits a number is taken for an integer, and it has a
    value up to 64 bits. -/
def unsignedDoc? (n : Nat) : Option Doc :=
  if n < UInt64.size then some (.unsigned n)
  else if n < 1 <<< 128 then some .unreadable
  else none

/-- An integer with a minus sign, by the same rule. -/
def signedDoc? (n : Nat) : Option Doc :=
  if n ≤ 1 <<< 63 then some (.signed (-(n : Int)))
  else if n ≤ 1 <<< 127 then some .unreadable
  else none

/-- The integer that a scalar looks like. -/
def intDoc? : List Char → Option Doc
  | '-' :: cs => (natOfMarked? cs).bind signedDoc?
  | '+' :: cs => (natOfMarked? cs).bind unsignedDoc?
  | cs => (natOfMarked? cs).bind unsignedDoc?

/-! ### Floats -/

/-- The digits and the power of ten of a decimal number. The point is optional, and so are the
    digits on one side of it. -/
def decimal? (cs : List Char) : Option (Nat × Int) :=
  let (whole, cs) := Numeral.spanDigits cs
  let (fraction, cs) :=
    match cs with
    | '.' :: cs => Numeral.spanDigits cs
    | cs => ([], cs)
  if whole.isEmpty && fraction.isEmpty then none
  else
    (Numeral.readExponent cs).map fun e =>
      (Numeral.natOfDigits (whole ++ fraction), e.getD 0 - fraction.length)

/-- The binary64 word of a signed number, unless it is beyond every finite one. -/
def finiteWord? (negative : Bool) (cs : List Char) : Option Nat :=
  let f := Floating.binary64
  (decimal? cs).bind fun (digits, e) =>
    let magnitude := f.nearestDecimal digits e
    if magnitude < f.infinity then some (f.withSign negative magnitude) else none

/-- The word of a number without a minus sign. -/
def positiveWord? (cs : List Char) : Option Nat :=
  if [".inf", ".Inf", ".INF"].contains (String.ofList cs) then some Floating.binary64.infinity
  else finiteWord? false cs

/-- The binary64 word of the float that a scalar looks like. -/
def floatWord? : List Char → Option Nat
  | '+' :: cs => positiveWord? cs
  | '-' :: cs =>
    if [".inf", ".Inf", ".INF"].contains (String.ofList cs) then
      some (Floating.binary64.withSign true Floating.binary64.infinity)
    else finiteWord? true cs
  | cs =>
    if [".nan", ".NaN", ".NAN"].contains (String.ofList cs) then
      some (Floating.binary64.encode .nan)
    else positiveWord? cs

/-! ### Scalars -/

/-- What a plain scalar without a tag means. -/
def plainDoc (s : String) : Doc :=
  if s.isEmpty || isNullWord s then .null
  else
    match boolWord? s with
    | some b => .bool b
    | none =>
      match intDoc? s.toList with
      | some d => d
      | none =>
        let unsigned :=
          match s.toList with
          | '-' :: cs => cs
          | '+' :: cs => cs
          | cs => cs
        match if isPadded unsigned then none else floatWord? s.toList with
        | some w => .float w
        | none => .text s

/-- The kinds that a tag can ask for. -/
inductive TagKind where
  | null | bool | int | float
  deriving DecidableEq

/-- The kind that a tag asks for. -/
def TagKind.ofTag? (tag : String) : Option TagKind :=
  [("tag:yaml.org,2002:null", TagKind.null), ("tag:yaml.org,2002:bool", .bool),
    ("tag:yaml.org,2002:int", .int), ("tag:yaml.org,2002:float", .float)].lookup tag

/-- What a scalar means as one of a kind. -/
def TagKind.doc? (s : String) : TagKind → Option Doc
  | .null => if isNullWord s then some .null else none
  | .bool => (boolWord? s).map .bool
  | .int => intDoc? s.toList
  | .float => (floatWord? s.toList).map .float

/-- Whether a tag names a foreign kind. -/
def isForeign (tag : Option String) : Bool := tag.any fun t => t.startsWith "!"

/-- What a scalar means. -/
def scalarDoc (tag : Option String) (plain : Bool) (s : String) : Doc :=
  match tag with
  | none => if plain then plainDoc s else .text s
  | some t =>
    if isForeign tag then .unreadable
    else
      match TagKind.ofTag? t with
      | some k => (k.doc? s).getD .unreadable
      | none => .text s

/-! ## Documents

Collections may be nested 128 deep, aliases followed on the way. Because aliases can blow up a small
text, the number of times that one is followed is limited too: to a hundred times the size of the
document. Both limits count for a document as a whole, so the readers here say how many levels are
left and pass on how often an alias may still be followed. -/

/-- How deep collections may be nested. -/
def depthLimit : Nat := 128

/-- A step of reading, which may fail. The state is the number of times that an alias may still be
    followed. -/
abbrev Reader := StateT Nat Option

namespace Document

/-- How often aliases may be followed in a document. -/
def aliasLimit (d : Document) : Nat := 100 * d.size

/-- The node itself, or the one that an alias stands for. -/
def follow (d : Document) : Node → Reader Node
  | .alias anchor => do
    match ← get with
    | 0 => failure
    | left + 1 =>
      set left
      d.anchored.lookup anchor
  | node => return node

/-- What a node means when `levels` more levels of collections may be entered. -/
def doc (d : Document) : Nat → Node → Reader Doc
  | 0, node => do
    match ← d.follow node with
    | .scalar tag plain text => return scalarDoc tag plain text
    | _ => failure
  | levels + 1, node => do
    match ← d.follow node with
    | .scalar tag plain text => return scalarDoc tag plain text
    | .sequence tag items =>
      if isForeign tag then failure
      return .list (← items.mapM (d.doc levels))
    | .mapping tag entries =>
      if isForeign tag then failure
      return .record (← entries.mapM fun (k, v) => do
        return (← d.doc levels k, ← d.doc levels v))
    | .alias _ => failure

/-- The text of a name, whatever its style and its tag. -/
def name (d : Document) (key : Node) : Reader String := do
  match ← d.follow key with
  | .scalar _ _ text => return text
  | _ => failure

/-- The items of a node that stands for a sequence. A node that is left out stands for an empty one.
    -/
def items (d : Document) (node : Node) : Reader (List Node) := do
  match ← d.follow node with
  | .sequence _ items => return items
  | .scalar _ true "" => return []
  | _ => failure

/-- The slots of a node that stands for a structure with the given fields, of which the first
    `least` must be present when they are given by position. -/
def slots (d : Document) (names : List String) (least : Nat) (node : Node) :
    Reader (List (Option Node)) := do
  match ← d.follow node with
  | .sequence _ items => Shape.slots? names least (.positional items)
  | .mapping _ entries =>
    let named ← entries.mapM fun (k, v) => do return (some (← d.name k), v)
    Shape.slots? names least (.named named)
  | _ => failure

/-- A node that may be null or left out: none then, and otherwise the node. -/
def optional (d : Document) (node : Node) : Reader (Option Node) := do
  match ← d.follow node with
  | .scalar tag true text =>
    if tag.isNone && (text.isEmpty || isNullWord text) then return none
    if tag.bind TagKind.ofTag? == some .null then
      if isNullWord text then return none else failure
    return some (.scalar tag true text)
  | node => return some node

end Document

end SortMerge.Yaml

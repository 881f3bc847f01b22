import SortMerge.Floating.Format

set_option autoImplicit false

/-! # Documents

The value that a structured text denotes, whatever notation it was written in: names, numbers, lists
and records. Decoders of the library's own types read documents and never the notation.

A part may be well formed and still have no value: a number beyond every range, a string literal
that is no text, a container nested too deep. Such a part is `unreadable`; it does no harm where
nobody looks at it. -/

namespace SortMerge

/-- A self-describing value. An `unsigned` number was written without a minus sign, a `signed` one
    with it; a `float` is a binary64 word. -/
inductive Doc where
  | null
  | bool (value : Bool)
  | unsigned (value : Nat)
  | signed (value : Int)
  | float (word : Nat)
  | text (value : String)
  | list (items : List Doc)
  | record (entries : List (Doc × Doc))
  | unreadable
  deriving Inhabited

namespace Doc

/-! ## Leaves -/

def bool? : Doc → Option Bool
  | .bool b => some b
  | _ => none

def text? : Doc → Option String
  | .text s => some s
  | _ => none

/-- An integer from `lo` to `hi`. -/
def int? (lo hi : Int) : Doc → Option Int
  | .unsigned n => if lo ≤ (n : Int) ∧ (n : Int) ≤ hi then some n else none
  | .signed i => if lo ≤ i ∧ i ≤ hi then some i else none
  | _ => none

/-- A natural number of at most `width` bits. -/
def nat? (width : Nat) (d : Doc) : Option Nat :=
  (d.int? 0 (((1 <<< width : Nat) : Int) - 1)).map Int.toNat

/-- A floating-point word of the given format; an integer is rounded to it at once, a binary64 word
    is rounded from its value. -/
def floatWord? (f : Floating.Format) : Doc → Option Nat
  | .unsigned n => some (f.encode (.ofInt n))
  | .signed i => some (f.encode (.ofInt i))
  | .float w => some (if f = Floating.binary64 then w else f.encode (Floating.binary64.decode w))
  | _ => none

def list? : Doc → Option (List Doc)
  | .list ds => some ds
  | _ => none

mutual

/-- Whether every part of a document has a value. -/
def isReadable : Doc → Bool
  | .unreadable => false
  | .list items => allReadable items
  | .record entries => entriesReadable entries
  | _ => true

/-- Whether every part of some documents has a value. -/
def allReadable : List Doc → Bool
  | [] => true
  | d :: ds => d.isReadable && allReadable ds

/-- Whether every name and every value of a record has a value. -/
def entriesReadable : List (Doc × Doc) → Bool
  | [] => true
  | (k, v) :: es => k.isReadable && v.isReadable && entriesReadable es

end

/-! ## Alternatives

One of several named alternatives is written as its name or as a record with that name as its only
entry. A document that is *held*, that is, kept in memory before it is known what to read from it,
may name an alternative by its position. -/

/-- The position of the alternative that a document names. -/
def pick? (names : List String) : Doc → Option Nat
  | .text s => names.idxOf? s
  | .unsigned n => if n < names.length then some n else none
  | _ => none

/-- The name of an alternative and what comes with it. -/
def choice? : Doc → Option (Doc × Option Doc)
  | .text s => some (.text s, none)
  | .record [(k, v)] => some (k, some v)
  | _ => none

/-- Whether a document holds the place of no content. Held documents may use an empty record. -/
def isVoid (held : Bool) : Doc → Bool
  | .null => true
  | .record [] => held
  | _ => false

/-- The position of an alternative that has no content. -/
def plainChoice? (held : Bool) (names : List String) (d : Doc) : Option Nat :=
  match d.choice? with
  | some (k, none) => k.pick? names
  | some (k, some v) => if v.isVoid held then k.pick? names else none
  | none => none

end Doc

/-! ## Shapes of structured values

A structured value is written by name or by position. `Shape.slots?` turns either form into one slot
for each field of the expected structure. By name, unknown fields are passed over and a known one
may stand only once. By position there may be no field too many, and none too few up to `least`. -/

/-- The parts of a structured value. A name is `none` where it cannot be the name of a field. -/
inductive Shape (α : Type) where
  | named (entries : List (Option String × α))
  | positional (items : List α)

namespace Shape

variable {α : Type}

/-- The values that stand under a name. -/
def under (name : String) (entries : List (Option String × α)) : List α :=
  entries.filterMap fun e => if e.1 = some name then some e.2 else none

/-- The value under a name that may be missing but not repeated. -/
def slot? (entries : List (Option String × α)) (name : String) : Option (Option α) :=
  match under name entries with
  | [] => some none
  | [v] => some (some v)
  | _ => none

/-- One slot for each of the expected names. -/
def slots? (names : List String) (least : Nat) : Shape α → Option (List (Option α))
  | .named entries =>
    if entries.all fun e => e.1.isSome then names.mapM (slot? entries) else none
  | .positional items =>
    if least ≤ items.length ∧ items.length ≤ names.length then
      some ((List.range names.length).map fun i => items[i]?)
    else none

end Shape

namespace Doc

/-- A record or a list as the parts of a structured value. -/
def shape? : Doc → Option (Shape Doc)
  | .record entries => some (.named (entries.map fun e => (e.1.text?, e.2)))
  | .list items => some (.positional items)
  | _ => none

/-- The slots of a structure with the given fields, of which the first `least` must be present when
    they are given by position. -/
def slots? (names : List String) (least : Nat) (d : Doc) : Option (List (Option Doc)) :=
  d.shape?.bind (Shape.slots? names least)

end Doc

end SortMerge

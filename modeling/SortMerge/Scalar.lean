import SortMerge.Bytes
import SortMerge.Doc
import SortMerge.Floating.Shortest
import SortMerge.Json.Reading
import SortMerge.Text

set_option autoImplicit false

/-! # Scalars

The values that columns hold. A floating-point scalar keeps the word of its binary format, so that
payloads of values that are no numbers, and the sign of zero, pass through unchanged. Scalars of all
kinds have one order, and they can be written in three ways: as bytes, for fingerprints; as a text
in a message; and as JSON, which can be read again. -/

namespace SortMerge

/-! ## Kinds -/

/-- The ten kinds of scalar, in the order that sorts scalars of unlike kinds. -/
inductive Kind where
  | null | bool | int16 | int32 | int64 | float32 | float64 | text | binary | timestamp
  deriving DecidableEq, Repr, Inhabited

namespace Kind

def all : List Kind :=
  [.null, .bool, .int16, .int32, .int64, .float32, .float64, .text, .binary, .timestamp]

/-- The position of a kind in the order of kinds. -/
def rank : Kind → Nat
  | .null => 0
  | .bool => 1
  | .int16 => 2
  | .int32 => 3
  | .int64 => 4
  | .float32 => 5
  | .float64 => 6
  | .text => 7
  | .binary => 8
  | .timestamp => 9

def name : Kind → String
  | .null => "Null"
  | .bool => "Bool"
  | .int16 => "I16"
  | .int32 => "I32"
  | .int64 => "I64"
  | .float32 => "F32"
  | .float64 => "F64"
  | .text => "Str"
  | .binary => "Bin"
  | .timestamp => "Timestamp"

theorem all_getElem?_rank (k : Kind) : all[k.rank]? = some k := by
  cases k <;> rfl

theorem rank_injective {a b : Kind} (h : a.rank = b.rank) : a = b := by
  have := all_getElem?_rank a
  rw [h, all_getElem?_rank b] at this
  exact (Option.some.inj this).symm

end Kind

/-- The type of a column; null belongs to every type. -/
inductive DataType where
  | boolean | int16 | int32 | int64 | float32 | float64 | utf8 | binary | timestamp
  deriving DecidableEq, Repr, Inhabited

namespace DataType

def all : List DataType :=
  [.boolean, .int16, .int32, .int64, .float32, .float64, .utf8, .binary, .timestamp]

def name : DataType → String
  | .boolean => "Boolean"
  | .int16 => "Int16"
  | .int32 => "Int32"
  | .int64 => "Int64"
  | .float32 => "Float32"
  | .float64 => "Float64"
  | .utf8 => "Utf8"
  | .binary => "Binary"
  | .timestamp => "Timestamp"

/-- The data type with the given written name. -/
def ofName? (s : String) : Option DataType := all.find? fun t => t.name == s

end DataType

/-! ## Values -/

/-- A single value. -/
inductive Scalar where
  | null
  | bool (value : Bool)
  | int16 (value : Int16)
  | int32 (value : Int32)
  | int64 (value : Int64)
  | float32 (word : UInt32)
  | float64 (word : UInt64)
  | text (value : String)
  | binary (value : List UInt8)
  /-- Microseconds since the start of 1970. -/
  | timestamp (micros : Int64)
  deriving DecidableEq, Inhabited

namespace Scalar

def kind : Scalar → Kind
  | .null => .null
  | .bool _ => .bool
  | .int16 _ => .int16
  | .int32 _ => .int32
  | .int64 _ => .int64
  | .float32 _ => .float32
  | .float64 _ => .float64
  | .text _ => .text
  | .binary _ => .binary
  | .timestamp _ => .timestamp

/-- The column type that a scalar fits; null fits all and has none of its own. -/
def dataType? : Scalar → Option DataType
  | .null => none
  | .bool _ => some .boolean
  | .int16 _ => some .int16
  | .int32 _ => some .int32
  | .int64 _ => some .int64
  | .float32 _ => some .float32
  | .float64 _ => some .float64
  | .text _ => some .utf8
  | .binary _ => some .binary
  | .timestamp _ => some .timestamp

def isNull : Scalar → Bool
  | .null => true
  | _ => false

def isTrue : Scalar → Bool
  | .bool true => true
  | _ => false

/-- True of `false` and of null: an unknown outcome qualifies nothing. -/
def isFalse : Scalar → Bool
  | .bool false => true
  | .null => true
  | _ => false

/-- The exact number that a numeric scalar stands for. -/
def number? : Scalar → Option Floating.Value
  | .int16 v => some (.ofInt v.toInt)
  | .int32 v => some (.ofInt v.toInt)
  | .int64 v => some (.ofInt v.toInt)
  | .float32 w => some (Floating.binary32.decode w.toNat)
  | .float64 w => some (Floating.binary64.decode w.toNat)
  | _ => none

/-! ## Order

One total preorder over all kinds, used for sorting and for matching join keys. Values of one kind
compare by value, numbers of any two widths compare by exact value, and everything else compares by
kind, so that nulls come first. -/

def compare : Scalar → Scalar → Ordering
  | .bool a, .bool b => Ord.compare a b
  | .text a, .text b => Ord.compare a b
  | .binary a, .binary b => Ord.compare a b
  | .timestamp a, .timestamp b => Ord.compare a.toInt b.toInt
  | a, b =>
    match a.number?, b.number? with
    | some x, some y => x.compare y
    | _, _ => Ord.compare a.kind.rank b.kind.rank

/-! ### Sameness -/

/-- Sameness of floating-point values: the two zeros are the same, and what is no number differs
    even from itself. -/
def sameNumber (a b : Floating.Value) : Bool :=
  a != .nan && b != .nan && a.compare b == .eq

/-- Sameness of scalars: equal kind and equal value, floating-point values by number and not by
    word. It is not reflexive. -/
def same : Scalar → Scalar → Bool
  | .float32 a, .float32 b =>
    sameNumber (Floating.binary32.decode a.toNat) (Floating.binary32.decode b.toNat)
  | .float64 a, .float64 b =>
    sameNumber (Floating.binary64.decode a.toNat) (Floating.binary64.decode b.toNat)
  | a, b => decide (a = b)

example : compare (.int64 9007199254740993) (.float64 0x4340000000000000) = .gt := by decide
example : compare (.float32 0x7fc00000) (.float64 0x7ff0000000000000) = .gt := by decide
example : compare (.float64 0x8000000000000000) (.int16 0) = .eq := by decide +kernel
example : same (.float64 0x7ff8000000000000) (.float64 0x7ff8000000000000) = false := by decide

/-! ## Bytes

One byte for the kind, then the payload. Fixed-width payloads are little-endian words; texts and
byte strings are preceded by their length, so that a sequence of scalars can be written without
separators. -/

/-- A byte string behind its length in eight bytes. -/
def lengthPrefixed (bs : List UInt8) : List UInt8 :=
  LittleEndian.encode 8 bs.length ++ bs

def payload : Scalar → List UInt8
  | .null => []
  | .bool b => [if b then 1 else 0]
  | .int16 v => LittleEndian.encode 2 v.toUInt16.toNat
  | .int32 v => LittleEndian.encode 4 v.toUInt32.toNat
  | .int64 v => LittleEndian.encode 8 v.toUInt64.toNat
  | .float32 w => LittleEndian.encode 4 w.toNat
  | .float64 w => LittleEndian.encode 8 w.toNat
  | .text s => lengthPrefixed s.toUTF8.toList
  | .binary bs => lengthPrefixed bs
  | .timestamp t => LittleEndian.encode 8 t.toUInt64.toNat

def bytes (s : Scalar) : List UInt8 :=
  UInt8.ofNat s.kind.rank :: s.payload

/-! ## Messages

The text of a scalar inside an error message: the name of its kind with the value in parentheses. -/

/-- In messages a number is written in full from `0.0001` up to sixteen digits before the point, and
    of two equally near decimals the larger one is taken. -/
def messageLayout : Floating.Layout := ⟨-4, 15, .up⟩

/-- A floating-point value as it stands in a message. -/
def describeNumber (f : Floating.Format) (word : Nat) : String :=
  let v := f.decode word
  match messageLayout.numeral f v with
  | some n => String.ofList (n.chars false)
  | none =>
    match v with
    | .infinite true => "-inf"
    | .infinite false => "inf"
    | _ => "NaN"

/-- The value of a scalar as it stands in a message; null shows none. -/
def describeValue : Scalar → Option String
  | .null => none
  | .bool b => some (if b then "true" else "false")
  | .int16 v => some (toString v.toInt)
  | .int32 v => some (toString v.toInt)
  | .int64 v => some (toString v.toInt)
  | .float32 w => some (describeNumber Floating.binary32 w.toNat)
  | .float64 w => some (describeNumber Floating.binary64 w.toNat)
  | .text s => some (Text.Quoted.encode s)
  | .binary bs => some ("[" ++ ", ".intercalate (bs.map fun b => toString b.toNat) ++ "]")
  | .timestamp t => some (toString t.toInt)

/-- A scalar as it stands in a message. -/
def describe (s : Scalar) : String :=
  match s.describeValue with
  | none => s.kind.name
  | some v => s.kind.name ++ "(" ++ v ++ ")"

/-! ## JSON

Null is its name; every other scalar is a record with the name of its kind as the only entry.
Numbers are written with the fewest digits that read back in their own format; infinities and what
is no number are written as null, which does not read back. -/

/-! ### Writing -/

/-- In JSON a number is written in full from `0.00001` up to sixteen digits before the point, and of
    two equally near decimals the one with an even last digit is taken. -/
def jsonLayout : Floating.Layout := ⟨-5, 15, .even⟩

def numberJson (f : Floating.Format) (word : Nat) : Json :=
  match jsonLayout.numeral f (f.decode word) with
  | some n => .number n
  | none => .null

def contentJson : Scalar → Json
  | .null => .null
  | .bool b => .bool b
  | .int16 v => .ofInt v.toInt
  | .int32 v => .ofInt v.toInt
  | .int64 v => .ofInt v.toInt
  | .float32 w => numberJson Floating.binary32 w.toNat
  | .float64 w => numberJson Floating.binary64 w.toNat
  | .text s => .ofString s
  | .binary bs => .array (bs.map fun b => .ofNat b.toNat)
  | .timestamp t => .ofInt t.toInt

def toJson : Scalar → Json
  | .null => .ofString Kind.null.name
  | s => .record [(s.kind.name, s.contentJson)]

/-! ### Reading -/

/-- A signed integer of the given width. -/
def signed? (width : Nat) (d : Doc) : Option Int :=
  let bound : Int := (1 <<< (width - 1) : Nat)
  d.int? (-bound) (bound - 1)

def byte? (d : Doc) : Option UInt8 := (d.nat? 8).map UInt8.ofNat

/-- The scalar of a kind with the given content. -/
def ofContent? (held : Bool) (content : Doc) : Kind → Option Scalar
  | .null => if content.isVoid held then some .null else none
  | .bool => content.bool?.map .bool
  | .int16 => (signed? 16 content).map fun i => .int16 (Int16.ofInt i)
  | .int32 => (signed? 32 content).map fun i => .int32 (Int32.ofInt i)
  | .int64 => (signed? 64 content).map fun i => .int64 (Int64.ofInt i)
  | .float32 => (content.floatWord? Floating.binary32).map fun w => .float32 (UInt32.ofNat w)
  | .float64 => (content.floatWord? Floating.binary64).map fun w => .float64 (UInt64.ofNat w)
  | .text => content.text?.map .text
  | .binary => (content.list?.bind fun ds => ds.mapM byte?).map .binary
  | .timestamp => (signed? 64 content).map fun i => .timestamp (Int64.ofInt i)

def kind? (d : Doc) : Option Kind := (d.pick? (Kind.all.map Kind.name)).bind (Kind.all[·]?)

def ofDoc? (held : Bool) (d : Doc) : Option Scalar :=
  match d.choice? with
  | some (k, none) => (kind? k).bind fun k => if k = .null then some .null else none
  | some (k, some content) => (kind? k).bind (ofContent? held content)
  | none => none

def ofJson? (s : String) : Option Scalar := (Json.read? s).bind (ofDoc? false)

end Scalar

end SortMerge

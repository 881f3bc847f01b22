import SortMerge.Bytes
import SortMerge.Tile

set_option autoImplicit false

/-! # External rows

Exchange of rows with a database that knows two shapes of values: machine words, and buffers that
start with their own length. Every column has a type tag that says how its values are read. A value
of the wrong shape, or under an unknown tag, reads as null; nothing else is lost, since conversion
never fails. -/

namespace SortMerge

/-! ## Values -/

/-- A value as the database holds it. -/
inductive Datum where
  | word (value : UInt64)
  | buffer (bytes : List UInt8)
  | null
  deriving DecidableEq, Inhabited

/-- The types that the exchange knows. -/
inductive ExternalType where
  | smallint | integer | bigint | float8 | timestamp
  /-- One of the three types of text. -/
  | text
  deriving DecidableEq, Repr

/-- The type of a tag. The three types of text are fixed-width, varying and unlimited. -/
def ExternalType.ofTag? : Nat → Option ExternalType
  | 20 => some .bigint
  | 21 => some .smallint
  | 23 => some .integer
  | 25 => some .text
  | 701 => some .float8
  | 1042 => some .text
  | 1043 => some .text
  | 1114 => some .timestamp
  | _ => none

namespace Datum

/-- The number of bytes before the content of a buffer. -/
def headerSize : Nat := 4

/-- A buffer with the given content. The header counts itself. -/
def ofContent (content : List UInt8) : Datum :=
  .buffer (LittleEndian.encode headerSize (content.length + headerSize) ++ content)

/-- The content of a buffer: as many bytes as its header says, if it has them. Bytes after those do
    not count. -/
def content? (buffer : List UInt8) : Option (List UInt8) :=
  let total := LittleEndian.decode (buffer.take headerSize)
  if headerSize ≤ buffer.length ∧ headerSize ≤ total ∧ total ≤ buffer.length then
    some ((buffer.take total).drop headerSize)
  else none

/-- The scalar of a buffer's content: text where it is UTF-8, bytes where it is not. -/
def scalarOfContent (content : List UInt8) : Scalar :=
  match String.fromUTF8? ⟨content.toArray⟩ with
  | some s => .text s
  | none => .binary content

/-- The scalar of a datum of the given type. Integers are the low bits of the word. -/
def toScalarOfType : ExternalType → Datum → Scalar
  | .smallint, .word w => .int16 w.toUInt16.toInt16
  | .integer, .word w => .int32 w.toUInt32.toInt32
  | .bigint, .word w => .int64 w.toInt64
  | .float8, .word w => .float64 w
  | .timestamp, .word w => .timestamp w.toInt64
  | .text, .buffer b =>
    match content? b with
    | some content => scalarOfContent content
    | none => .null
  | _, _ => .null

/-- The scalar of a datum under a type tag. -/
def toScalar (tag : Nat) (d : Datum) : Scalar :=
  match ExternalType.ofTag? tag with
  | some t => d.toScalarOfType t
  | none => .null

/-- The datum of a scalar. Integers are widened with their sign; booleans and single-precision
    numbers have no datum of their own. -/
def ofScalar : Scalar → Datum
  | .null => .null
  | .bool _ => .null
  | .int16 v => .word v.toInt64.toUInt64
  | .int32 v => .word v.toInt64.toUInt64
  | .int64 v => .word v.toUInt64
  | .float32 _ => .null
  | .float64 w => .word w
  | .text s => ofContent s.toUTF8.toList
  | .binary bs => ofContent bs
  | .timestamp t => .word t.toUInt64

end Datum

/-! ## Rows -/

/-- Why external rows do not make a batch. -/
inductive ExternalError where
  /-- There are more or fewer names than type tags. -/
  | nameCount (names tags : Nat)
  /-- A row has more or fewer values than there are columns. -/
  | rowWidth (row width expected : Nat)
  deriving DecidableEq, Repr

def ExternalError.message : ExternalError → String
  | .nameCount names tags =>
    "schema error: " ++ toString names ++ " column names for " ++ toString tags ++ " type tags"
  | .rowWidth row width expected =>
    "schema error: external row " ++ toString row ++ " has " ++ toString width
      ++ " attributes, expected " ++ toString expected

def externalColumn (rows : List (List Datum)) (column : (String × Nat) × Nat) : Column :=
  let ((name, tag), c) := column
  ⟨name, rows.map fun r => (r.getD c .null).toScalar tag⟩

/-- The batch of external rows, one name and one type tag for each column. -/
def Batch.ofExternal (names : List String) (tags : List Nat) (rows : List (List Datum)) :
    Except ExternalError Batch :=
  if names.length ≠ tags.length then .error (.nameCount names.length tags.length)
  else
    match rows.zipIdx.find? fun r => r.1.length != tags.length with
    | some (r, i) => .error (.rowWidth i r.length tags.length)
    | none => .ok ⟨(names.zip tags).zipIdx.map (externalColumn rows)⟩

/-- The values of a tile's row as data, none if some value does not resolve. -/
def Tile.rowToExternal (t : Tile) (row : Nat) : Option (List Datum) :=
  (List.range t.columnCount).mapM fun c => (t.value c row).map Datum.ofScalar

end SortMerge

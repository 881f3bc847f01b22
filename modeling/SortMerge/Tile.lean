import SortMerge.Batch
import SortMerge.Digest

set_option autoImplicit false

/-! # Tiles

A tile shows rows of batches without copying them. Each of its columns names a column of some batch
and one of the tile's position lists, and the list says which rows of the batch appear, in order.
All position lists are equally long; their length is the tile's row count. A `Row` is one line of a
tile as seen by an expression. -/

namespace SortMerge

/-- Where a column of a tile takes its values from. -/
structure ColumnView where
  base : Batch
  origin : Nat
  list : Nat
  deriving DecidableEq, Inhabited

/-- The name of the column that is shown, empty if there is none. -/
def ColumnView.name (v : ColumnView) : String :=
  match v.base.columns[v.origin]? with
  | some c => c.name
  | none => ""

/-- Columns and the position lists that they refer to. -/
structure Tile where
  columns : List ColumnView
  lists : List (List Nat)
  deriving DecidableEq, Inhabited

/-- One line of a tile: its number, how many columns it has, and the value in each. -/
structure Row where
  index : Nat
  width : Nat
  cell : Nat → Option Scalar

namespace Tile

/-- The number of rows, read off the first position list. -/
def rowCount (t : Tile) : Nat :=
  match t.lists with
  | [] => 0
  | l :: _ => l.length

/-- The number of rows of some tiles. -/
def totalRows : List Tile → Nat
  | [] => 0
  | t :: ts => t.rowCount + totalRows ts

def columnCount (t : Tile) : Nat := t.columns.length

/-- The value in a column and a row, through the column's position list. -/
def value (t : Tile) (column row : Nat) : Option Scalar :=
  match t.columns[column]? with
  | none => none
  | some v =>
    match t.lists[v.list]? with
    | none => none
    | some positions =>
      match positions[row]? with
      | none => none
      | some p => v.base.columns[v.origin]?.bind fun c => c.values[p]?

def row (t : Tile) (index : Nat) : Row := ⟨index, t.columnCount, fun c => t.value c index⟩

/-! ## Integrity -/

/-- What is wrong with the position list of the given number. -/
def listFault? (t : Tile) (list : List Nat × Nat) : Option IntegrityError :=
  if list.1.length = t.rowCount then none
  else some (.unevenList list.2 list.1.length t.rowCount)

/-- What is wrong with the column of the given number: its list must exist, then its origin, and
    then every position must be a row of its batch. -/
def columnFault? (t : Tile) (column : ColumnView × Nat) : Option IntegrityError :=
  let (v, c) := column
  match t.lists[v.list]? with
  | none => some (.missingList c v.list t.lists.length)
  | some positions =>
    if v.base.columns.length ≤ v.origin then
      some (.missingColumn c v.origin v.base.columns.length)
    else
      (positions.find? fun p => decide (v.base.rowCount ≤ p)).map fun p =>
        .missingRow c p v.base.rowCount

/-- The first thing that is wrong with a tile, position lists first. -/
def fault? (t : Tile) : Option IntegrityError :=
  match t.lists.zipIdx.findSome? t.listFault? with
  | some e => some e
  | none => t.columns.zipIdx.findSome? t.columnFault?

def check (t : Tile) : Except IntegrityError Unit :=
  match t.fault? with
  | none => .ok ()
  | some e => .error e

/-- The tile of the given parts, which must fit together. -/
def build? (columns : List ColumnView) (lists : List (List Nat)) : Except IntegrityError Tile :=
  let t : Tile := ⟨columns, lists⟩
  t.check.map fun _ => t

/-! ## Whole batches -/

/-- The tile that shows all of a batch, with a position list of its own for each column. -/
def ofBatch? (b : Batch) : Except IntegrityError Tile :=
  match b.check with
  | .error e => .error e
  | .ok () =>
    build? ((List.range b.columns.length).map fun c => ⟨b, c, c⟩)
      (List.replicate b.columns.length (List.range b.rowCount))

/-- The visible values as a batch of their own; a value that does not resolve becomes null. -/
def materialize (t : Tile) : Batch :=
  ⟨t.columns.zipIdx.map fun (v, c) =>
    ⟨v.name, (List.range t.rowCount).map fun r => (t.value c r).getD .null⟩⟩

/-! ## Fingerprints

The bytes of a tile are its shape, its position lists and its resolved values, row by row, without
separators. The shape says how many columns and rows follow, and how long a position list is, but
not how many lists there are. That number is not written, so the positions of a list that no column
names can be taken for values. Fingerprints of sequences of tiles are taken over the bytes of the
tiles in order. -/

/-- A natural number in eight bytes. -/
def wordBytes (n : Nat) : List UInt8 := LittleEndian.encode 8 n

/-- The values of one row, in column order; values that do not resolve are left out. -/
def rowBytes (t : Tile) (row : Nat) : List UInt8 :=
  (List.range t.columnCount).flatMap fun c =>
    match t.value c row with
    | some v => v.bytes
    | none => []

def bytes (t : Tile) : List UInt8 :=
  wordBytes t.columnCount ++ wordBytes t.rowCount
    ++ (t.columns.flatMap fun v => wordBytes v.list)
    ++ (t.lists.flatMap fun l => l.flatMap wordBytes)
    ++ (List.range t.rowCount).flatMap t.rowBytes

/-- The bytes of a sequence of tiles. -/
def sequenceBytes (ts : List Tile) : List UInt8 := ts.flatMap bytes

end Tile

/-- The fingerprint of a sequence of tiles. -/
def Digest.ofTiles (ts : List Tile) : Digest := .ofBytes (Tile.sequenceBytes ts)

end SortMerge

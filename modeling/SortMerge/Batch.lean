import SortMerge.Scalar

set_option autoImplicit false

/-! # Batches

A batch stores rows column by column. A batch as such may have columns of different lengths;
`Batch.ofColumns?` refuses those. The first column says how many rows there are. -/

namespace SortMerge

/-! ## Integrity

The ways in which a batch or a tile can fail to be one: uneven columns or position lists, and
references to lists, columns or rows that do not exist. -/

/-- What is wrong with a batch or a tile. -/
inductive IntegrityError where
  /-- A column of a batch is longer or shorter than the first one. -/
  | unevenColumn (name : String) (size expected : Nat)
  /-- A position list of a tile is longer or shorter than the first one. -/
  | unevenList (list size expected : Nat)
  /-- A column of a tile names a position list that the tile does not have. -/
  | missingList (column list count : Nat)
  /-- A column of a tile names a column that its batch does not have. -/
  | missingColumn (column origin count : Nat)
  /-- A column of a tile points at a row that its batch does not have. -/
  | missingRow (column row count : Nat)
  deriving DecidableEq, Repr

namespace IntegrityError

def reason : IntegrityError → String
  | .unevenColumn name size expected =>
    "column '" ++ name ++ "' has " ++ toString size ++ " values, expected " ++ toString expected
  | .unevenList list size expected =>
    "position list " ++ toString list ++ " has " ++ toString size ++ " rows, expected "
      ++ toString expected
  | .missingList column list count =>
    "column " ++ toString column ++ " references position list " ++ toString list ++ " of "
      ++ toString count
  | .missingColumn column origin count =>
    "column " ++ toString column ++ " references base column " ++ toString origin ++ " of "
      ++ toString count
  | .missingRow column row count =>
    "column " ++ toString column ++ " points at row " ++ toString row ++ " of a "
      ++ toString count ++ "-row batch"

def message (e : IntegrityError) : String := "Internal invariant failed: " ++ e.reason

end IntegrityError

/-! ## Columns and batches -/

/-- A named column of values. -/
structure Column where
  name : String
  values : List Scalar
  deriving DecidableEq, Inhabited

/-- Columns side by side. -/
structure Batch where
  columns : List Column
  deriving DecidableEq, Inhabited

namespace Batch

/-- The number of rows, read off the first column. -/
def rowCount (b : Batch) : Nat :=
  match b.columns with
  | [] => 0
  | c :: _ => c.values.length

/-- The first column that differs in length from the first one. -/
def fault? (b : Batch) : Option IntegrityError :=
  (b.columns.find? fun c => c.values.length != b.rowCount).map fun c =>
    .unevenColumn c.name c.values.length b.rowCount

/-- Accepts a batch whose columns are equally long. -/
def check (b : Batch) : Except IntegrityError Unit :=
  match b.fault? with
  | none => .ok ()
  | some e => .error e

theorem check_eq_ok_iff (b : Batch) :
    b.check = .ok () ↔ ∀ c ∈ b.columns, c.values.length = b.rowCount := by
  unfold check fault?
  cases h : b.columns.find? fun c => c.values.length != b.rowCount with
  | none => simpa using h
  | some c =>
      have hc := List.find?_some h
      have hm := List.mem_of_find?_eq_some h
      simp only [Option.map_some, reduceCtorEq, false_iff]
      intro hall
      simp [hall c hm] at hc

/-- The batch of the given columns, which must be equally long. -/
def ofColumns? (columns : List Column) : Except IntegrityError Batch :=
  let b : Batch := ⟨columns⟩
  b.check.map fun _ => b

/-! ### JSON -/

def columnJson (c : Column) : Json :=
  .record [("name", .ofString c.name), ("values", .array (c.values.map Scalar.toJson))]

def toJson (b : Batch) : Json := .record [("columns", .array (b.columns.map columnJson))]

def columnOfDoc? (d : Doc) : Option Column :=
  match d.slots? ["name", "values"] 2 with
  | some [some name, some values] =>
    match name.text?, values.list?.bind fun vs => vs.mapM (Scalar.ofDoc? false) with
    | some name, some values => some ⟨name, values⟩
    | _, _ => none
  | _ => none

/-- The batch that a document spells; its columns are taken as they are. -/
def ofDoc? (d : Doc) : Option Batch :=
  match d.slots? ["columns"] 1 with
  | some [some columns] =>
    (columns.list?.bind fun cs => cs.mapM columnOfDoc?).map fun cs => ⟨cs⟩
  | _ => none

def ofJson? (s : String) : Option Batch := (Json.read? s).bind ofDoc?

end Batch

end SortMerge

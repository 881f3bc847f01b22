import SortMerge.Scalar

set_option autoImplicit false

/-! # Schemas

The names and types of columns. The schema of a join puts the fields of both sides next to each
other; a right field whose name is taken gets the suffix `_right` as often as needed. -/

namespace SortMerge

/-- The name and type of a column. -/
structure Field where
  name : String
  dataType : DataType
  nullable : Bool
  deriving DecidableEq, Repr, Inhabited

/-- A sequence of fields. -/
structure Schema where
  fields : List Field
  deriving DecidableEq, Repr, Inhabited

namespace Schema

/-- The names of the fields, in order. -/
def names (s : Schema) : List String := s.fields.map Field.name

/-- The position of the first field with the given name. -/
def indexOf? (s : Schema) (name : String) : Option Nat := s.names.idxOf? name

/-! ## Joining -/

/-- The length of the longest of some names. -/
def longest (names : List String) : Nat := (names.map String.length).foldr max 0

theorem length_le_longest {name : String} {names : List String} (h : name ∈ names) :
    name.length ≤ longest names := by
  induction names with
  | nil => cases h
  | cons n ns ih =>
      simp only [longest, List.map_cons, List.foldr_cons]
      cases h with
      | head => exact Nat.le_max_left _ _
      | tail _ h => exact Nat.le_trans (ih h) (Nat.le_max_right _ _)

/-- The name with the suffix appended until it is not taken. It ends because a taken name is no
    longer than the longest one, and the suffix makes the name longer. -/
def freshName (taken : List String) (name : String) : String :=
  if name ∈ taken then freshName taken (name ++ "_right") else name
termination_by longest taken + 1 - name.length
decreasing_by
  have h := length_le_longest ‹name ∈ taken›
  have hlen : (name ++ "_right").length = name.length + 6 := by
    rw [String.length_append]; rfl
  omega

/-- Appends a field under a name that is not taken. -/
def addFresh (fields : List Field) (f : Field) : List Field :=
  fields ++ [{ f with name := freshName (fields.map Field.name) f.name }]

/-- The left fields, then the right fields under names that are not taken. -/
def join (left right : Schema) : Schema := ⟨right.fields.foldl addFresh left.fields⟩

/-! ## JSON -/

def fieldJson (f : Field) : Json :=
  .record [("name", .ofString f.name), ("data_type", .ofString f.dataType.name),
    ("nullable", .bool f.nullable)]

def toJson (s : Schema) : Json := .record [("fields", .array (s.fields.map fieldJson))]

def dataTypeOfDoc? (d : Doc) : Option DataType :=
  (d.plainChoice? false (DataType.all.map DataType.name)).bind (DataType.all[·]?)

def fieldOfDoc? (d : Doc) : Option Field :=
  match d.slots? ["name", "data_type", "nullable"] 3 with
  | some [some name, some dataType, some nullable] =>
    match name.text?, dataTypeOfDoc? dataType, nullable.bool? with
    | some name, some dataType, some nullable => some ⟨name, dataType, nullable⟩
    | _, _, _ => none
  | _ => none

def ofDoc? (d : Doc) : Option Schema :=
  match d.slots? ["fields"] 1 with
  | some [some fields] => (fields.list?.bind fun fs => fs.mapM fieldOfDoc?).map fun fs => ⟨fs⟩
  | _ => none

def ofJson? (s : String) : Option Schema := (Json.read? s).bind ofDoc?

end Schema

end SortMerge

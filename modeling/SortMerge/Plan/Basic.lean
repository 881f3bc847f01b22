import SortMerge.Expr.Json
import SortMerge.Schema

set_option autoImplicit false

/-! # Plans

A plan says how two inputs are joined: clauses, each an expression over the left rows and one over
the right rows whose values must be equal, and a predicate over both. The order of the clauses is
the order in which keys are compared. A plan is valid if it has a clause, and if each half of a
clause reads its own side only and no parameter, so that keys can be computed from one row alone. -/

namespace SortMerge

/-- One part of the join key, as it is computed on each side. -/
structure Clause where
  left : Expr
  right : Expr
  deriving Inhabited

namespace Clause

/-- Equality of one column from each side. -/
def onColumns (left right : Nat) : Clause := ⟨.column .left left, .column .right right⟩

/-- The half that reads the rows of a side. -/
def half (c : Clause) : Side → Expr
  | .left => c.left
  | .right => c.right

/-- Sameness of clauses, half by half. -/
def same (a b : Clause) : Bool := a.left.same b.left && a.right.same b.right

end Clause

/-- The clauses of a join and the predicate that decides over matched groups. -/
structure Plan where
  clauses : List Clause
  predicate : Option Expr := none
  deriving Inhabited

/-- The notations of plans. -/
inductive PlanFormat where
  | json | yaml
  deriving DecidableEq, Repr

/-- What is wrong with a plan. -/
inductive PlanError where
  /-- The text spells no plan. -/
  | unreadable (format : PlanFormat)
  /-- There is no clause. -/
  | noClauses
  /-- A half of a clause reads a column of the other side. -/
  | foreignColumn (clause : Nat) (side : Side) (index : Nat)
  /-- A half of a clause reads a parameter. -/
  | keyParameter (clause : Nat) (side : Side) (index : Nat)
  /-- A join has two inputs. -/
  | notTwoInputs
  /-- An expression reads a column that its side does not have. -/
  | columnOutOfRange (side : Side) (index columns : Nat)
  deriving DecidableEq, Repr

namespace PlanError

def reason : PlanError → String
  | .unreadable .json => "invalid merge join json"
  | .unreadable .yaml => "invalid merge join yaml"
  | .noClauses => "merge join needs at least one join clause"
  | .foreignColumn clause side index =>
    "clause " ++ toString clause ++ ": " ++ side.name ++ " expression reads column "
      ++ toString index ++ " of the other input"
  | .keyParameter clause side index =>
    "clause " ++ toString clause ++ ": " ++ side.name ++ " expression reads parameter "
      ++ toString index ++ "; join keys take no parameters"
  | .notTwoInputs => "merge join expects two inputs"
  | .columnOutOfRange side index columns =>
    side.name ++ " column " ++ toString index ++ " out of range (" ++ toString columns
      ++ " columns)"

def message (e : PlanError) : String := "planning error: " ++ e.reason

end PlanError

namespace Plan

def samePredicate : Option Expr → Option Expr → Bool
  | none, none => true
  | some a, some b => a.same b
  | _, _ => false

def sameClauses : List Clause → List Clause → Bool
  | [], [] => true
  | a :: as, b :: bs => a.same b && sameClauses as bs
  | _, _ => false

/-- Sameness of plans: the same clauses in the same order and the same predicate. -/
def same (a b : Plan) : Bool :=
  sameClauses a.clauses b.clauses && samePredicate a.predicate b.predicate

/-! ## Validity -/

/-- What is wrong with the half of a clause that reads the given side: a column of the other side is
    reported before a parameter. -/
def halfFault? (clause : Clause × Nat) (side : Side) : Option PlanError :=
  let half := clause.1.half side
  match half.columns.find? fun c => c.1 != side with
  | some c => some (.foreignColumn clause.2 side c.2)
  | none => half.params.head?.map (.keyParameter clause.2 side)

/-- The first thing that is wrong with the clauses of a plan. -/
def fault? (p : Plan) : Option PlanError :=
  if p.clauses.isEmpty then some .noClauses
  else p.clauses.zipIdx.findSome? fun c => Side.all.findSome? (halfFault? c)

def validate (p : Plan) : Except PlanError Unit :=
  match p.fault? with
  | none => .ok ()
  | some e => .error e

def validated (p : Plan) : Except PlanError Plan := p.validate.map fun _ => p

/-! ## Output schema -/

/-- Every column reference of the plan, clauses first. -/
def columns (p : Plan) : List (Side × Nat) :=
  (p.clauses.flatMap fun c => c.left.columns ++ c.right.columns)
    ++ (match p.predicate with
        | none => []
        | some e => e.columns)

/-- The schema of the join of two inputs, which must have every column that the plan reads. -/
def outputSchema (p : Plan) : List Schema → Except PlanError Schema
  | [left, right] =>
    let width : Side → Nat
      | .left => left.fields.length
      | .right => right.fields.length
    match p.columns.find? fun c => decide (width c.1 ≤ c.2) with
    | some (side, index) => .error (.columnOutOfRange side index (width side))
    | none => .ok (left.join right)
  | _ => .error .notTwoInputs

end Plan

/-! ## JSON

A plan is a record of its clauses and its predicate, which is null or left out where there is none.
A plan that is read is also validated. -/

def Clause.toJson (c : Clause) : Json :=
  .record [("left", c.left.toJson), ("right", c.right.toJson)]

def Clause.ofDoc? (d : Doc) : Option Clause :=
  match d.slots? ["left", "right"] 2 with
  | some [some left, some right] =>
    match Expr.ofDoc? left, Expr.ofDoc? right with
    | some l, some r => some ⟨l, r⟩
    | _, _ => none
  | _ => none

namespace Plan

def predicateJson : Option Expr → Json
  | none => .null
  | some e => e.toJson

def toJson (p : Plan) : Json :=
  .record [("clauses", .array (p.clauses.map Clause.toJson)),
    ("predicate", predicateJson p.predicate)]

/-- The predicate of a slot, which may be empty or null. -/
def predicateOfSlot? : Option Doc → Option (Option Expr)
  | none => some none
  | some .null => some none
  | some d => (Expr.ofDoc? d).map some

/-- The plan that a document spells, valid or not. -/
def ofDoc? (d : Doc) : Option Plan :=
  match d.slots? ["clauses", "predicate"] 1 with
  | some [some clauses, predicate] =>
    match clauses.list?.bind fun cs => cs.mapM Clause.ofDoc?, predicateOfSlot? predicate with
    | some cs, some e => some ⟨cs, e⟩
    | _, _ => none
  | _ => none

/-- The valid plan that a JSON text spells. -/
def ofJson (s : String) : Except PlanError Plan :=
  match (Json.read? s).bind ofDoc? with
  | none => .error (.unreadable .json)
  | some p => p.validated

end Plan

end SortMerge

import SortMerge.Plan.Basic
import SortMerge.Yaml.Reading

set_option autoImplicit false

/-! # Plans as YAML

A plan in YAML has the same structure as one in JSON. Fields that a plan does not have are passed
over without a look at what they hold. -/

namespace SortMerge

open Yaml (Document Node Reader)

/-- The document of an expression, where `levels` more levels of collections may be entered. The
    form that the expression has is read as a name, whatever its tag says. -/
def Expr.docOfNode (d : Document) : Nat → Node → Reader Doc
  | 0, _ => failure
  | levels + 1, node => do
    match ← d.follow node with
    | .sequence tag (form :: items) =>
      if Yaml.isForeign tag then failure
      return .list (.text (← d.name form) :: (← items.mapM (d.doc levels)))
    | .mapping tag entries =>
      if Yaml.isForeign tag then failure
      return .record (← entries.mapM fun (k, v) => do
        let key ← d.doc levels k
        let value ← if key.text? = some "kind" then .text <$> d.name v else d.doc levels v
        return (key, value))
    | _ => failure

def Expr.ofNode (d : Document) (levels : Nat) (node : Node) : Reader Expr := do
  Expr.ofDoc? (← Expr.docOfNode d levels node)

def Clause.ofNode (d : Document) (levels : Nat) (node : Node) : Reader Clause := do
  match ← d.slots ["left", "right"] 2 node with
  | [some left, some right] =>
    return ⟨← Expr.ofNode d (levels - 1) left, ← Expr.ofNode d (levels - 1) right⟩
  | _ => failure

namespace Plan

/-- The predicate of a slot, which may be empty or null. -/
def predicateOfNode (d : Document) (levels : Nat) : Option Node → Reader (Option Expr)
  | none => return none
  | some node => do
    match ← d.optional node with
    | none => return none
    | some node => return some (← Expr.ofNode d levels node)

/-- The plan that a node spells, valid or not. -/
def ofNode (d : Document) (levels : Nat) (node : Node) : Reader Plan := do
  match ← d.slots ["clauses", "predicate"] 1 node with
  | [some clauses, predicate] =>
    let clauses ← (← d.items clauses).mapM (Clause.ofNode d (levels - 2))
    return ⟨clauses, ← predicateOfNode d (levels - 1) predicate⟩
  | _ => failure

/-- The plan that a document spells, valid or not. -/
def ofDocument? (d : Document) : Option Plan :=
  (ofNode d Yaml.depthLimit d.root).run' d.aliasLimit

/-- The valid plan that a YAML text spells. -/
def ofYaml (s : String) : Except PlanError Plan :=
  match (Document.read? s).bind ofDocument? with
  | none => .error (.unreadable .yaml)
  | some p => p.validated

end Plan

end SortMerge

import SortMerge.Expr.Basic
import SortMerge.Tile

set_option autoImplicit false

/-! # Evaluation

Expressions are evaluated under three-valued logic: a comparison with null is unknown, and the
connectives treat null as unknown. Operands are evaluated from left to right; a connective stops at
the first operand that settles its outcome, so that later operands are neither evaluated nor able to
fail. -/

namespace SortMerge

/-- What an expression may read. -/
structure Env where
  left : Row
  right : Row
  params : List Scalar

def Env.row (env : Env) : Side → Row
  | .left => env.left
  | .right => env.right

/-- The connectives, as they are named in errors. -/
inductive Connective where
  | junction (op : Junction)
  | not
  deriving DecidableEq, Repr

def Connective.name : Connective → String
  | .junction op => op.name
  | .not => "not"

/-- Why an expression has no value. -/
inductive ExprError where
  /-- The row has no value in the column. -/
  | columnOutOfRange (side : Side) (index columns : Nat)
  /-- The run supplies no such parameter. -/
  | unboundParam (index : Nat)
  /-- An operand of a connective is neither boolean nor null. -/
  | notBoolean (op : Connective) (got : Scalar)
  deriving DecidableEq

def ExprError.message : ExprError → String
  | .columnOutOfRange side index columns =>
    side.name ++ " column " ++ toString index ++ " out of range (" ++ toString columns
      ++ " columns)"
  | .unboundParam index => "parameter " ++ toString index ++ " is not bound"
  | .notBoolean op got => op.name ++ " expects boolean operands, got " ++ got.describe

namespace Expr

/-- The scalar of a truth value; `none` is unknown. -/
def ofTruth : Option Bool → Scalar
  | some b => .bool b
  | none => .null

def truth (op : Connective) : Scalar → Except ExprError (Option Bool)
  | .bool b => .ok (some b)
  | .null => .ok none
  | v => .error (.notBoolean op v)

/-- The outcome of a comparison, unknown if an operand is null. -/
def compareValues (op : Comparison) (a b : Scalar) : Scalar :=
  if a.isNull || b.isNull then .null else .bool (op.holds (a.compare b))

mutual

def eval (env : Env) : Expr → Except ExprError Scalar
  | .column side index =>
    match (env.row side).cell index with
    | some v => .ok v
    | none => .error (.columnOutOfRange side index (env.row side).width)
  | .literal v => .ok v
  | .param index =>
    match env.params[index]? with
    | some v => .ok v
    | none => .error (.unboundParam index)
  | .compare op l r =>
    match eval env l with
    | .error e => .error e
    | .ok a =>
      match eval env r with
      | .error e => .error e
      | .ok b => .ok (compareValues op a b)
  | .junction op args => evalJunction env op args false
  | .not arg =>
    match eval env arg with
    | .error e => .error e
    | .ok v =>
      match truth .not v with
      | .error e => .error e
      | .ok t => .ok (ofTruth (t.map Bool.not))

/-- The value of a connective over the operands that are left; `unknown` says whether one of those
    before them was null. -/
def evalJunction (env : Env) (op : Junction) : List Expr → Bool → Except ExprError Scalar
  | [], unknown => .ok (ofTruth (if unknown then none else some !op.decisive))
  | e :: es, unknown =>
    match eval env e with
    | .error err => .error err
    | .ok v =>
      match truth (.junction op) v with
      | .error err => .error err
      | .ok none => evalJunction env op es true
      | .ok (some b) =>
        if b = op.decisive then .ok (.bool b) else evalJunction env op es unknown

end

end Expr

end SortMerge

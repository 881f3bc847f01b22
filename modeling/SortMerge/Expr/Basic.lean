import SortMerge.Scalar

set_option autoImplicit false

/-! # Expressions

Expressions read the columns of a left and a right row and the parameters of a run. This module
holds the syntax and what can be read off it: the columns and the parameters that an expression
mentions, in the order in which they stand. -/

namespace SortMerge

/-- The two inputs of a join. -/
inductive Side where
  | left | right
  deriving DecidableEq, Repr, Inhabited

namespace Side

def all : List Side := [.left, .right]

def name : Side → String
  | .left => "left"
  | .right => "right"

end Side

/-- The comparison operators. -/
inductive Comparison where
  | eq | ne | lt | le | gt | ge
  deriving DecidableEq, Repr, Inhabited

namespace Comparison

def all : List Comparison := [.eq, .ne, .lt, .le, .gt, .ge]

def name : Comparison → String
  | .eq => "eq"
  | .ne => "ne"
  | .lt => "lt"
  | .le => "le"
  | .gt => "gt"
  | .ge => "ge"

/-- Whether operands in the given order satisfy the operator. -/
def holds : Comparison → Ordering → Bool
  | .eq, o => o == .eq
  | .ne, o => o != .eq
  | .lt, o => o == .lt
  | .le, o => o != .gt
  | .gt, o => o == .gt
  | .ge, o => o != .lt

end Comparison

/-- The two connectives of several operands. -/
inductive Junction where
  | and | or
  deriving DecidableEq, Repr, Inhabited

namespace Junction

def name : Junction → String
  | .and => "and"
  | .or => "or"

/-- The operand value that settles the outcome. -/
def decisive : Junction → Bool
  | .and => false
  | .or => true

end Junction

/-- Expressions over a pair of rows. -/
inductive Expr where
  | column (side : Side) (index : Nat)
  | literal (value : Scalar)
  /-- A value that is supplied with the run, by position. -/
  | param (index : Nat)
  | compare (op : Comparison) (left right : Expr)
  | junction (op : Junction) (args : List Expr)
  | not (arg : Expr)
  deriving Inhabited

namespace Expr

/-! ## What an expression mentions -/

mutual

/-- The column references, in the order in which they stand. -/
def columns : Expr → List (Side × Nat)
  | .column side index => [(side, index)]
  | .literal _ => []
  | .param _ => []
  | .compare _ l r => l.columns ++ r.columns
  | .junction _ args => columnsOfAll args
  | .not arg => arg.columns

def columnsOfAll : List Expr → List (Side × Nat)
  | [] => []
  | e :: es => e.columns ++ columnsOfAll es

end

mutual

/-- The parameters, in the order in which they stand. -/
def params : Expr → List Nat
  | .column _ _ => []
  | .literal _ => []
  | .param index => [index]
  | .compare _ l r => l.params ++ r.params
  | .junction _ args => paramsOfAll args
  | .not arg => arg.params

def paramsOfAll : List Expr → List Nat
  | [] => []
  | e :: es => e.params ++ paramsOfAll es

end

/-! ## Sameness -/

mutual

/-- Sameness of expressions: the same shape with the same literals, in the sense of scalars. -/
def same : Expr → Expr → Bool
  | .column s i, .column t j => s == t && i == j
  | .literal v, .literal w => v.same w
  | .param i, .param j => i == j
  | .compare o a b, .compare p c d => o == p && a.same c && b.same d
  | .junction o as, .junction p bs => o == p && sameAll as bs
  | .not a, .not b => a.same b
  | _, _ => false

def sameAll : List Expr → List Expr → Bool
  | [], [] => true
  | a :: as, b :: bs => a.same b && sameAll as bs
  | _, _ => false

end

end Expr

end SortMerge

import SortMerge.Expr.Eval
import SortMerge.Plan.Basic
import SortMerge.Trail

set_option autoImplicit false

/-! # Keys and groups

A join compares rows by their keys. Neighbouring rows of a tile with equal keys make a group, and
`groups` walks over a whole tile; the walk stops early if some key cannot be computed. -/

namespace SortMerge

/-! ## Keys

Rows are compared clause by clause, and the first clause with unequal values decides. Two rows of
one input are compared by that side's halves, each row standing on both sides of its own evaluation;
a left and a right row are compared by the left halves against the right ones. No parameters are
bound in either case. -/

/-- Compares two values for each clause until they differ. The first value is computed before the
    second one, and later clauses only after an equal one. -/
def orderBy (first second : Clause → Except ExprError Scalar) :
    List Clause → Except ExprError Ordering
  | [] => .ok .eq
  | c :: cs =>
    match first c with
    | .error e => .error e
    | .ok a =>
      match second c with
      | .error e => .error e
      | .ok b =>
        match a.compare b with
        | .eq => orderBy first second cs
        | o => .ok o

/-- The value of a clause's half on a row of its side. -/
def Clause.key (c : Clause) (side : Side) (r : Row) : Except ExprError Scalar :=
  (c.half side).eval ⟨r, r, []⟩

/-- The order of two rows of one input. -/
def keyOrder (clauses : List Clause) (side : Side) (a b : Row) : Except ExprError Ordering :=
  orderBy (fun c => c.key side a) (fun c => c.key side b) clauses

/-- The order of a left row and a right row. -/
def pairOrder (clauses : List Clause) (l r : Row) : Except ExprError Ordering :=
  orderBy (fun c => c.left.eval ⟨l, r, []⟩) (fun c => c.right.eval ⟨l, r, []⟩) clauses

/-! ## Groups

A group is a run of neighbouring rows of a tile in which every row has the key of the one before
it. -/

/-- The rows from `first` up to but not including `stop`. -/
structure Group where
  first : Nat
  stop : Nat
  deriving DecidableEq, Repr, Inhabited

namespace Group

def size (g : Group) : Nat := g.stop - g.first

def rows (g : Group) : List Nat := List.range' g.first g.size

end Group

/-! ### Ends -/

/-- The end of a group that reaches up to `row`, with `remaining` rows of the tile not looked at. -/
def groupEndFrom (clauses : List Clause) (side : Side) (t : Tile) :
    Nat → Nat → Except ExprError Nat
  | 0, row => .ok row
  | remaining + 1, row =>
    match keyOrder clauses side (t.row (row - 1)) (t.row row) with
    | .error e => .error e
    | .ok .eq => groupEndFrom clauses side t remaining (row + 1)
    | .ok _ => .ok row

/-- The end of the group that starts at a row: the first later row whose key differs from the one
    before it, or the row count. A start past the last row is its own end. -/
def groupEnd (clauses : List Clause) (side : Side) (t : Tile) (start : Nat) :
    Except ExprError Nat :=
  if t.rowCount ≤ start then .ok start
  else groupEndFrom clauses side t (t.rowCount - (start + 1)) (start + 1)

theorem le_groupEndFrom {clauses : List Clause} {side : Side} {t : Tile} {remaining row stop : Nat}
    (h : groupEndFrom clauses side t remaining row = .ok stop) :
    row ≤ stop ∧ stop ≤ row + remaining := by
  fun_induction groupEndFrom clauses side t remaining row with
  | case1 row => cases h; omega
  | case2 => cases h
  | case3 remaining row _ ih => have := ih h; omega
  | case4 => cases h; omega

/-- A group that starts at a row of the tile has that row, and ends within the tile. -/
theorem lt_groupEnd {clauses : List Clause} {side : Side} {t : Tile} {start stop : Nat}
    (hstart : start < t.rowCount) (h : groupEnd clauses side t start = .ok stop) :
    start < stop ∧ stop ≤ t.rowCount := by
  rw [groupEnd, if_neg (by omega)] at h
  have := le_groupEndFrom h
  omega

/-! ### Walks -/

/-- The groups from a row on, at most `bound` of them. -/
def groupsFrom (clauses : List Clause) (side : Side) (t : Tile) :
    Nat → Nat → Trail (Option ExprError) Group
  | 0, _ => .stop none
  | bound + 1, start =>
    if t.rowCount ≤ start then .stop none
    else
      match groupEnd clauses side t start with
      | .error e => .stop (some e)
      | .ok stop => .step ⟨start, stop⟩ (groupsFrom clauses side t bound stop)

/-- The groups of a tile. There are no more of them than rows. -/
def groups (clauses : List Clause) (side : Side) (t : Tile) : Trail (Option ExprError) Group :=
  groupsFrom clauses side t t.rowCount 0

end SortMerge

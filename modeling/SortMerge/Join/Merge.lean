import SortMerge.Join.Group

set_option autoImplicit false

/-! # Merging

One pass over the groups of two tiles that are sorted on their keys. At each step the first rows of
the current groups are compared; the side with the smaller key moves on, and on equal keys both do.
A pair of groups with equal keys is a match. The predicate looks at the first row of each group and
keeps or drops the match as a whole. -/

namespace SortMerge

/-- A pair of groups with equal keys; `kept` says whether the predicate accepted it. -/
structure Match where
  left : Group
  right : Group
  kept : Bool
  deriving DecidableEq, Repr, Inhabited

namespace Match

/-- The pairs of rows of a match, the left row varying slowest. -/
def pairs (m : Match) : List (Nat × Nat) :=
  m.left.rows.flatMap fun l => m.right.rows.map fun r => (l, r)

end Match

/-- Whether the predicate accepts a pair of rows: everything but false and null does. -/
def Plan.accepts (p : Plan) (params : List Scalar) (l r : Row) : Except ExprError Bool :=
  match p.predicate with
  | none => .ok true
  | some e =>
    match e.eval ⟨l, r, params⟩ with
    | .error err => .error err
    | .ok v => .ok !v.isFalse

/-- Merges two walks over groups. A walk that stopped with an error stops the merge with it;
    otherwise the merge ends where either walk does. -/
def Plan.mergeGroups (p : Plan) (params : List Scalar) (left right : Tile) :
    Trail (Option ExprError) Group → Trail (Option ExprError) Group →
      Trail (Option ExprError) Match
  | .stop (some e), _ => .stop (some e)
  | _, .stop (some e) => .stop (some e)
  | .stop none, _ => .stop none
  | _, .stop none => .stop none
  | .step g gs, .step h hs =>
    let l := left.row g.first
    let r := right.row h.first
    match pairOrder p.clauses l r with
    | .error e => .stop (some e)
    | .ok .lt => p.mergeGroups params left right gs (.step h hs)
    | .ok .gt => p.mergeGroups params left right (.step g gs) hs
    | .ok .eq =>
      match p.accepts params l r with
      | .error e => .stop (some e)
      | .ok kept => .step ⟨g, h, kept⟩ (p.mergeGroups params left right gs hs)
termination_by gs hs => gs.length + hs.length
decreasing_by all_goals simp only [Trail.length]; omega

def Plan.merge (p : Plan) (params : List Scalar) (left right : Tile) :
    Trail (Option ExprError) Match :=
  p.mergeGroups params left right (groups p.clauses .left left) (groups p.clauses .right right)

/-! ## Counting -/

/-- What one pass found: matches kept and dropped, and the pairs of rows in those kept. -/
structure PassStats where
  matched : Nat
  discarded : Nat
  emitted : Nat
  deriving DecidableEq, Repr, Inhabited

def keptMatches (ms : List Match) : List Match := ms.filter Match.kept

/-- The pairs of rows that a pass emits, in order. -/
def emittedPairs (ms : List Match) : List (Nat × Nat) := (keptMatches ms).flatMap Match.pairs

/-- The number of pairs of rows in some matches. -/
def productSizes : List Match → Nat
  | [] => 0
  | m :: ms => m.left.size * m.right.size + productSizes ms

def PassStats.ofMatches (ms : List Match) : PassStats :=
  { matched := (keptMatches ms).length
    discarded := (ms.filter (!·.kept)).length
    emitted := productSizes (keptMatches ms) }

/-! ## Output tiles

The output of merging two tiles is a tile again: the columns of both, over the position lists of
both, each list rearranged by the pairs of rows that were emitted. The right tile's lists come after
the left one's, so its columns name lists shifted by the number of left lists. -/

/-- The output of two tiles while pairs of rows are being added to it. -/
structure Output where
  left : Tile
  right : Tile
  pairs : List (Nat × Nat)

namespace Output

def empty (left right : Tile) : Output := ⟨left, right, []⟩

def columns (o : Output) : List ColumnView :=
  o.left.columns ++ o.right.columns.map fun v => { v with list := v.list + o.left.lists.length }

def lists (o : Output) : List (List Nat) :=
  (o.left.lists.map fun src => o.pairs.map fun p => src.getD p.1 0)
    ++ o.right.lists.map fun src => o.pairs.map fun p => src.getD p.2 0

/-- The output as a tile that has not been checked. -/
def draft (o : Output) : Tile := ⟨o.columns, o.lists⟩

def rowCount (o : Output) : Nat := o.draft.rowCount

/-- Adds pairs of rows at the end. -/
def append (o : Output) (pairs : List (Nat × Nat)) : Output := { o with pairs := o.pairs ++ pairs }

/-- Adds every pair of a left and a right row, the left row varying slowest. -/
def appendProduct (o : Output) (l r : Group) : Output := o.append (Match.pairs ⟨l, r, true⟩)

/-- The finished tile, or none if it has no rows. -/
def finish (o : Output) : Except IntegrityError (Option Tile) :=
  if o.rowCount = 0 then .ok none else (Tile.build? o.columns o.lists).map some

end Output

end SortMerge

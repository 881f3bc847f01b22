import SortMerge.Config
import SortMerge.Join.Merge

set_option autoImplicit false

/-! # Joining a pair of tiles

Before two tiles are merged they are checked: each must have columns and be sound, and on request
each must be sorted on its keys. The statistics count a pair as soon as its merge has gone
through. -/

namespace SortMerge

/-! ## Errors

Why a join, or any operator, cannot be built or cannot answer. -/

/-- What makes a tile unfit as an input of a join. -/
inductive Malformation where
  /-- It has no columns, or no position lists. -/
  | noColumns
  /-- Its parts do not fit together. -/
  | broken (error : IntegrityError)
  deriving DecidableEq, Repr

/-- What is wrong with the tile, in words. -/
def Malformation.reason : Malformation → String
  | .noColumns => "tile has no columns"
  | .broken e => e.message

/-- Why an operator has no answer. -/
inductive OperatorError where
  /-- The plan is not valid. -/
  | plan (error : PlanError)
  /-- An input reported a tile but did not hand it out. -/
  | withheld (side : Side)
  /-- A source could not be read, for the given reason. -/
  | failed (reason : String)
  /-- A key or the predicate has no value. -/
  | expression (error : ExprError)
  /-- An input handed out a tile that cannot be merged. -/
  | malformed (side : Side) (why : Malformation)
  /-- A row of an input sorts before the one above it. -/
  | unsorted (side : Side) (row : Nat)
  /-- The right input ended, and that is not allowed. -/
  | rightExhausted
  /-- A tile could not be put together. -/
  | integrity (error : IntegrityError)
  deriving DecidableEq

def OperatorError.message : OperatorError → String
  | .plan e => e.message
  | .withheld side =>
    "execution error: " ++ side.name ++ " child reported a tile but handed out none"
  | .failed reason => "execution error: " ++ reason
  | .expression e => "expression error: " ++ e.message
  | .malformed side why => "malformed tile from " ++ side.name ++ " child: " ++ why.reason
  | .unsorted side row =>
    side.name ++ " input is not sorted on the join keys at row " ++ toString row
  | .rightExhausted => "right child is exhausted"
  | .integrity e => e.message

/-! ## Statistics

The running totals of a join over all pairs of tiles that it has merged. -/

/-- Running totals. Each pair of tiles is counted once in `tilePairs` and once more in `emptyPairs`
    or `tilesEmitted`, depending on whether it gave any rows. -/
structure Stats where
  tilePairs : Nat := 0
  emptyPairs : Nat := 0
  matchedGroups : Nat := 0
  discardedGroups : Nat := 0
  rowsEmitted : Nat := 0
  tilesEmitted : Nat := 0
  deriving DecidableEq, Repr, Inhabited

namespace Stats

/-- Counts a pass over a pair of tiles. -/
def addPass (s : Stats) (p : PassStats) : Stats :=
  { s with
    tilePairs := s.tilePairs + 1
    matchedGroups := s.matchedGroups + p.matched
    discardedGroups := s.discardedGroups + p.discarded
    rowsEmitted := s.rowsEmitted + p.emitted }

/-- Counts a pair that gave no rows. -/
def addEmpty (s : Stats) : Stats := { s with emptyPairs := s.emptyPairs + 1 }

def addTile (s : Stats) : Stats := { s with tilesEmitted := s.tilesEmitted + 1 }

def toList (s : Stats) : List Nat :=
  [s.tilePairs, s.emptyPairs, s.matchedGroups, s.discardedGroups, s.rowsEmitted, s.tilesEmitted]

def toJson (s : Stats) : Json :=
  .record (["tile_pairs", "empty_pairs", "matched_groups", "discarded_groups", "rows_emitted",
    "tiles_emitted"].zip (s.toList.map Json.ofNat))

end Stats

/-! ## Joins -/

/-- A join without its inputs: the plan, the settings and the parameters of the predicate. -/
structure Join where
  plan : Plan
  config : Config := {}
  params : List Scalar := []
  deriving Inhabited

namespace Join

/-- A join of a valid plan. -/
def build? (plan : Plan) (config : Config) (params : List Scalar) : Except PlanError Join :=
  plan.validate.map fun _ => ⟨plan, config, params⟩

/-! ## Checks -/

/-- Accepts a tile that can be merged. -/
def checkInput (side : Side) (t : Tile) : Except OperatorError Unit :=
  if t.columns.isEmpty || t.lists.isEmpty then .error (.malformed side .noColumns)
  else
    match t.check with
    | .error e => .error (.malformed side (.broken e))
    | .ok () => .ok ()

/-- Compares each row from `row` on with the one above it, for the given number of rows. -/
def checkSortedFrom (clauses : List Clause) (side : Side) (t : Tile) :
    Nat → Nat → Except OperatorError Unit
  | 0, _ => .ok ()
  | remaining + 1, row =>
    match keyOrder clauses side (t.row (row - 1)) (t.row row) with
    | .error e => .error (.expression e)
    | .ok .gt => .error (.unsorted side row)
    | .ok _ => checkSortedFrom clauses side t remaining (row + 1)

/-- Accepts a tile in which no row sorts before the one above it. -/
def checkSorted (clauses : List Clause) (side : Side) (t : Tile) : Except OperatorError Unit :=
  checkSortedFrom clauses side t (t.rowCount - 1) 1

/-- All checks that the settings ask for, the left tile first. -/
def checkPair (j : Join) (left right : Tile) : Except OperatorError Unit :=
  match checkInput .left left with
  | .error e => .error e
  | .ok () =>
    match checkInput .right right with
    | .error e => .error e
    | .ok () =>
      if j.config.verifySortedInputs then
        match checkSorted j.plan.clauses .left left with
        | .error e => .error e
        | .ok () => checkSorted j.plan.clauses .right right
      else .ok ()

/-! ## Joining -/

/-- Joins two tiles: the statistics afterwards, and the output tile if there are rows. The position
    lists of the output grow as rows are added. Reserving room for them beforehand, as the settings
    ask for, and failing to get it, is not described here. -/
def joinPair (j : Join) (left right : Tile) (s : Stats) :
    Stats × Except OperatorError (Option Tile) :=
  match j.checkPair left right with
  | .error e => (s, .error e)
  | .ok () =>
    let trail := j.plan.merge j.params left right
    match trail.ending with
    | some e => (s, .error (.expression e))
    | none =>
      let s := s.addPass (.ofMatches trail.toList)
      match ((Output.empty left right).append (emittedPairs trail.toList)).finish with
      | .error e => (s, .error (.integrity e))
      | .ok t => (s, .ok t)

end Join

end SortMerge

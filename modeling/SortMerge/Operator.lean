import SortMerge.Join.Pair

set_option autoImplicit false

/-! # Operators

An operator is asked again and again for its next tile. All that a caller can learn from it is the
sequence of its answers, so a `Feed` of answers is what it is here, up to the point from which it
answers the same for ever: it has ended, or it fails. An `Operator` is a feed in use: the answers
still ahead, the tile that is ready to be taken, and the statistics so far. -/

namespace SortMerge

/-! ## Feeds

The feed of a join is computed from the feeds of its inputs. Each pull asks the right input first
and then the left one, and goes on to the next pair as long as a pair gives no rows; that ends
because every round uses up an answer of the right feed. -/

/-- The answer to one pull. -/
inductive Answer where
  /-- A tile is ready. -/
  | tile (t : Tile)
  /-- A tile was reported but cannot be taken. -/
  | withheld
  /-- There are no more tiles. -/
  | ended
  | failed (error : OperatorError)
  deriving Inhabited

/-- The answers to successive pulls. At the end stands how every later pull is answered: that there
    are no more tiles, or with an error. -/
abbrev Feed := Trail (Option OperatorError) Answer

/-- The feed of a join with the statistics after each answer. -/
abbrev Trace := Trail (Option OperatorError × Stats) (Answer × Stats)

def Trace.feed (t : Trace) : Feed := t.map (·.1) (·.1)

namespace Join

/-- The answer for good when the right input has ended. -/
def rightEnd (j : Join) : Option OperatorError :=
  if j.config.strictRightExhaustion then some .rightExhausted else none

/-- What a join answers, given what its right and its left input will answer. The end of the left
    input ends the join quietly, even though the right input has handed out a tile by then. The end
    of the right input ends it too, or is an error each time it is met, as the settings say. -/
def trace (j : Join) : Feed → Feed → Stats → Trace
  | .stop none, _, s => .stop (j.rightEnd, s)
  | .stop (some e), _, s => .stop (some e, s)
  | .step (.failed e) right, left, s => .step (.failed e, s) (j.trace right left s)
  | .step .withheld right, left, s =>
    .step (.failed (.withheld .right), s) (j.trace right left s)
  | .step .ended right, left, s =>
    match j.rightEnd with
    | some e => .step (.failed e, s) (j.trace right left s)
    | none => .stop (none, s)
  | .step (.tile r) right, left, s =>
    match left with
    | .stop none => .stop (none, s)
    | .stop (some e) => .step (.failed e, s) (j.trace right left s)
    | .step .ended _ => .stop (none, s)
    | .step (.failed e) left => .step (.failed e, s) (j.trace right left s)
    | .step .withheld left => .step (.failed (.withheld .left), s) (j.trace right left s)
    | .step (.tile l) left =>
      match j.joinPair l r s with
      | (s, .error e) => .step (.failed e, s) (j.trace right left s)
      | (s, .ok none) => j.trace right left s.addEmpty
      | (s, .ok (some t)) => .step (.tile t, s.addTile) (j.trace right left s.addTile)

end Join

/-! ### Sources -/

/-- A tree of operators: the leaves hold their tiles, or their answers. -/
inductive Source where
  /-- Hands out its tiles in order. -/
  | scan (tiles : List Tile)
  /-- Gives the listed answers in order, and ends after the last one. -/
  | script (answers : List Answer)
  /-- Joins the tiles of two sources. -/
  | join (spec : Join) (left right : Source)
  deriving Inhabited

namespace Source

/-- A scan that shows each of the given batches as a tile. -/
def ofBatches? (batches : List Batch) : Except IntegrityError Source :=
  (batches.mapM Tile.ofBatch?).map .scan

/-- The answers of a source to successive pulls. -/
def feed : Source → Feed
  | .scan tiles => .ofList (tiles.map .tile) none
  | .script answers => .ofList answers none
  | .join spec left right => (spec.trace right.feed left.feed {}).feed

end Source

/-! ## Pulling and taking

`pull` asks for the next answer and `take` hands out the tile that is ready. Leaves forget an
untaken tile at the next pull; a join keeps it until another one replaces it. -/

/-- An operator in the hands of its caller. -/
structure Operator where
  name : String
  /-- Whether a tile that was not taken survives a pull that gives none. -/
  keepsUntaken : Bool
  ahead : Trace
  ready : Option Tile := none
  stats : Stats := {}

namespace Operator

/-- The feed of a leaf as a trace; leaves have no statistics. -/
def leafTrace (f : Feed) : Trace := f.map (fun a => (a, {})) fun e => (e, {})

/-- An operator that nobody has pulled yet. -/
def ofSource : Source → Operator
  | .scan tiles =>
    { name := "tile_scan", keepsUntaken := false, ahead := leafTrace (Source.scan tiles).feed }
  | .script answers =>
    { name := "script", keepsUntaken := false, ahead := leafTrace (Source.script answers).feed }
  | .join spec left right =>
    { name := "join_merge", keepsUntaken := true, ahead := spec.trace right.feed left.feed {} }

/-- The tile that stays ready through a pull that gives none. -/
def kept (o : Operator) : Option Tile := if o.keepsUntaken then o.ready else none

/-- Asks for the next answer: whether a tile is ready, or an error. -/
def pull (o : Operator) : Except OperatorError Bool × Operator :=
  match o.ahead with
  | .stop (none, s) => (.ok false, { o with ready := o.kept, stats := s })
  | .stop (some e, s) => (.error e, { o with ready := o.kept, stats := s })
  | .step (.tile t, s) rest => (.ok true, { o with ahead := rest, ready := some t, stats := s })
  | .step (.withheld, s) rest => (.ok true, { o with ahead := rest, ready := o.kept, stats := s })
  | .step (.ended, s) rest => (.ok false, { o with ahead := rest, ready := o.kept, stats := s })
  | .step (.failed e, s) rest => (.error e, { o with ahead := rest, ready := o.kept, stats := s })

/-- Hands out the tile that is ready. -/
def take (o : Operator) : Option Tile × Operator := (o.ready, { o with ready := none })

end Operator

/-! ## Draining -/

/-- Why a run has no result. -/
inductive RunError where
  | operator (error : OperatorError)
  /-- The operator of the given name reported a tile but did not hand it out. -/
  | withheld (operator : String)
  deriving DecidableEq

def RunError.message : RunError → String
  | .operator e => "operator exec: " ++ e.message
  | .withheld name => "invalid plan: " ++ name ++ " reported a tile but handed out none"

namespace Operator

/-- Pulls once for each answer in the trail, and once more at its end, taking every tile. -/
def drainAlong : Trace → Operator → Except RunError (List Tile) × Operator
  | .stop _, o =>
    match o.pull with
    | (.error e, o) => (.error (.operator e), o)
    | (.ok _, o) => (.ok [], o)
  | .step _ rest, o =>
    match o.pull with
    | (.error e, o) => (.error (.operator e), o)
    | (.ok false, o) => (.ok [], o)
    | (.ok true, o) =>
      match o.take with
      | (none, o) => (.error (.withheld o.name), o)
      | (some t, o) =>
        match drainAlong rest o with
        | (.error e, o) => (.error e, o)
        | (.ok ts, o) => (.ok (t :: ts), o)

/-- Pulls until there are no more tiles, taking every one of them. -/
def drain (o : Operator) : Except RunError (List Tile) × Operator := drainAlong o.ahead o

end Operator

end SortMerge

import SortMerge.Proofs.Operator.Found

set_option autoImplicit false

/-! # Executors

A join holds the operators below it, each in its own state and with its own slot for a tile, and
pulls them in turn until a pair of tiles has rows. This module runs trees of operators in that way,
call by call. What comes of it is what their traces say: no sequence of calls, of whatever length,
tells a tree of executors from the operator of the same source. -/

namespace SortMerge

/-- Something that can be pulled, from one state to the next. -/
structure Executor where
  name : String
  State : Type
  pull : State → Except OperatorError Bool × State
  take : State → Option Tile × State
  stats : State → Stats
  /-- A bound on the number of pulls that still report a tile. -/
  bound : State → Nat
  bound_pull : ∀ s, (pull s).1 = .ok true → bound (pull s).2 < bound s
  bound_take : ∀ s, bound (take s).2 ≤ bound s

/-- What a reported tile comes to for whoever takes it. -/
def Answer.ofTaken : Option Tile → Answer
  | none => .withheld
  | some t => .tile t

namespace Executor

/-- Pulls and takes the tile at once, as a join does with what is below it. -/
def ask (e : Executor) (s : e.State) : Answer × e.State :=
  match (e.pull s).1 with
  | .error err => (.failed err, (e.pull s).2)
  | .ok false => (.ended, (e.pull s).2)
  | .ok true => (.ofTaken (e.take (e.pull s).2).1, (e.take (e.pull s).2).2)

theorem bound_ask {e : Executor} {s s' : e.State} {t : Tile} (h : e.ask s = (.tile t, s')) :
    e.bound s' < e.bound s := by
  rw [ask] at h
  split at h
  · cases h
  · cases h
  · next hpull =>
      obtain ⟨-, rfl⟩ := Prod.mk.inj h
      exact Nat.lt_of_le_of_lt (e.bound_take _) (e.bound_pull s hpull)

/-! ## Scans and scripts -/

/-- The answers that a leaf still has to give, and its slot. -/
structure LeafState where
  pending : List Answer
  output : Option Tile := none

/-- Each pull of a leaf overwrites its slot. -/
def LeafState.pull : LeafState → Except OperatorError Bool × LeafState
  | ⟨[], _⟩ => (.ok false, ⟨[], none⟩)
  | ⟨.tile t :: rest, _⟩ => (.ok true, ⟨rest, some t⟩)
  | ⟨.withheld :: rest, _⟩ => (.ok true, ⟨rest, none⟩)
  | ⟨.ended :: rest, _⟩ => (.ok false, ⟨rest, none⟩)
  | ⟨.failed e :: rest, _⟩ => (.error e, ⟨rest, none⟩)

/-- A scan is a leaf that has nothing but tiles to give. -/
def leaf (name : String) : Executor where
  name := name
  State := LeafState
  pull := LeafState.pull
  take s := (s.output, { s with output := none })
  stats _ := {}
  bound s := s.pending.length
  bound_pull s h := by
    match s with
    | ⟨[], _⟩ | ⟨.ended :: _, _⟩ | ⟨.failed _ :: _, _⟩ => cases h
    | ⟨.tile _ :: rest, _⟩ | ⟨.withheld :: rest, _⟩ => exact Nat.lt_succ_self rest.length
  bound_take _ := Nat.le_refl _

/-! ## Joins -/

/-- The states of what is below a join, its slot and its statistics. -/
structure JoinState (L R : Type) where
  left : L
  right : R
  exhausted : Bool := false
  output : Option Tile := none
  stats : Stats := {}

section Join

variable (j : Join) (left right : Executor)

/-- Asks for one pair of tiles after the other, the right one of each first, until a pair gives rows
    or fails, or one of the two does not have a tile. The slot is only written for a new tile. -/
def nextTile (s : JoinState left.State right.State) :
    Except OperatorError Bool × JoinState left.State right.State :=
  match _hright : right.ask s.right with
  | (.failed e, r) => (.error e, { s with right := r })
  | (.withheld, r) => (.error (.withheld .right), { s with right := r })
  | (.ended, r) =>
    match j.rightEnd with
    | some e => (.error e, { s with right := r })
    | none => (.ok false, { s with right := r, exhausted := true })
  | (.tile tr, r) =>
    match left.ask s.left with
    | (.failed e, l) => (.error e, { s with left := l, right := r })
    | (.withheld, l) => (.error (.withheld .left), { s with left := l, right := r })
    | (.ended, l) => (.ok false, { s with left := l, right := r, exhausted := true })
    | (.tile tl, l) =>
      match j.joinPair tl tr s.stats with
      | (stats, .error e) => (.error e, { s with left := l, right := r, stats })
      | (stats, .ok none) => nextTile { s with left := l, right := r, stats := stats.addEmpty }
      | (stats, .ok (some t)) =>
        (.ok true, { s with left := l, right := r, output := some t, stats := stats.addTile })
termination_by right.bound s.right
decreasing_by exact bound_ask _hright

/-- A tile found has used up a right one. -/
theorem bound_nextTile (s : JoinState left.State right.State)
    (h : (nextTile j left right s).1 = .ok true) :
    right.bound (nextTile j left right s).2.right < right.bound s.right := by
  fun_induction nextTile j left right s with
  | case9 _ _ _ hright _ _ _ _ _ ih => exact Nat.lt_trans (ih h) (bound_ask hright)
  | case10 _ _ _ hright => exact bound_ask hright
  | _ => cases h

/-- A join owns what is below it. Once it is exhausted it does not ask any more. -/
def join : Executor where
  name := "join_merge"
  State := JoinState left.State right.State
  pull s := if s.exhausted then (.ok false, s) else nextTile j left right s
  take s := (s.output, { s with output := none })
  stats s := s.stats
  bound s := right.bound s.right
  bound_pull s h := by
    split at h
    · cases h
    · next hexhausted =>
        rw [if_neg hexhausted]
        exact bound_nextTile j left right s h
  bound_take _ := Nat.le_refl _

end Join

end Executor

namespace Source

/-- The tree of executors of a source. -/
def executor : Source → Executor
  | .scan _ => .leaf "tile_scan"
  | .script _ => .leaf "script"
  | .join j left right => .join j left.executor right.executor

/-- The state in which nobody has pulled anything yet. -/
def start : (src : Source) → src.executor.State
  | .scan tiles => { pending := tiles.map .tile : Executor.LeafState }
  | .script answers => { pending := answers : Executor.LeafState }
  | .join _ left right => { left := left.start, right := right.start : Executor.JoinState _ _ }

end Source

/-! ## What is ahead -/

/-- The first answer of a feed and what follows; the end gives the same answer for ever. -/
def Feed.next : Feed → Answer × Feed
  | .stop none => (.ended, .stop none)
  | .stop (some e) => (.failed e, .stop (some e))
  | .step a rest => (a, rest)

theorem Trace.next_feed (t : Trace) : Feed.next t.feed = (t.next.1.1, t.next.2.feed) := by
  match t with
  | .stop (none, s) | .stop (some e, s) | .step a rest => rfl

/-- The trace of a join by the first answers of its inputs. -/
theorem Join.next_trace (j : Join) (right left : Feed) (s : Stats) :
    (j.trace right left s).next =
      match right.next with
      | (.failed e, right) => ((.failed e, s), j.trace right left s)
      | (.withheld, right) => ((.failed (.withheld .right), s), j.trace right left s)
      | (.ended, right) =>
        match j.rightEnd with
        | some e => ((.failed e, s), j.trace right left s)
        | none => ((.ended, s), .stop (none, s))
      | (.tile r, right) =>
        match left.next with
        | (.failed e, left) => ((.failed e, s), j.trace right left s)
        | (.withheld, left) => ((.failed (.withheld .left), s), j.trace right left s)
        | (.ended, _) => ((.ended, s), .stop (none, s))
        | (.tile l, left) =>
          match j.joinPair l r s with
          | (s, .error e) => ((.failed e, s), j.trace right left s)
          | (s, .ok none) => (j.trace right left s.addEmpty).next
          | (s, .ok (some t)) => ((.tile t, s.addTile), j.trace right left s.addTile) := by
  fun_cases Join.trace j right left s with
  | case1 left =>
      simp only [trace, Feed.next]
      cases j.rightEnd <;> rfl
  | case5 left s right e hend | case6 left s right hend =>
      simp only [Feed.next, hend, Trace.next]
  | case12 _ _ _ _ _ _ _ hpair | case13 _ _ _ _ _ _ hpair | case14 _ _ _ _ _ _ _ hpair =>
      simp only [Feed.next, hpair, Trace.next]
  | _ => rfl

/-! ## Simulation -/

namespace Executor

variable {e left right : Executor} {j : Join}

/-- Asked again and again, the executor gives the answers of the feed. That is all that a join above
    it can see: how the executor uses its slot and its statistics does not matter. -/
def Gives (e : Executor) (s : e.State) (f : Feed) : Prop :=
  ∃ I : e.State → Feed → Prop, I s f ∧
    ∀ s f, I s f → (e.ask s).1 = f.next.1 ∧ I (e.ask s).2 f.next.2

theorem Gives.next {s s' : e.State} {f : Feed} {a : Answer} (h : e.Gives s f)
    (hask : e.ask s = (a, s')) : ∃ f', f.next = (a, f') ∧ e.Gives s' f' := by
  obtain ⟨I, hI, hstep⟩ := h
  obtain ⟨hanswer, hrest⟩ := hstep s f hI
  rw [hask] at hanswer hrest
  exact ⟨f.next.2, Prod.ext hanswer.symm rfl, I, hrest, hstep⟩

/-- Related states and operators look alike, and stay related through every call. -/
structure IsSimulation (e : Executor) (I : e.State → Operator → Prop) : Prop where
  name : ∀ {s o}, I s o → o.name = e.name
  stats : ∀ {s o}, I s o → o.stats = e.stats s
  pull : ∀ {s o}, I s o → (e.pull s).1 = o.pull.1 ∧ I (e.pull s).2 o.pull.2
  take : ∀ {s o}, I s o → (e.take s).1 = o.take.1 ∧ I (e.take s).2 o.take.2

/-- The state of a join and the operator that shows it: the slot and the statistics are the same,
    and what is ahead is the trace over what the inputs still give. -/
structure Shows (j : Join) (left right : Executor) (s : JoinState left.State right.State)
    (o : Operator) : Prop where
  name : o.name = "join_merge"
  keeps : o.keepsUntaken = true
  ready : o.ready = s.output
  stats : o.stats = s.stats
  ahead : (s.exhausted = true ∧ o.ahead = .stop (none, s.stats)) ∨
    (s.exhausted = false ∧ ∃ fl fr, left.Gives s.left fl ∧ right.Gives s.right fr ∧
      o.ahead = j.trace fr fl s.stats)

/-- The loop of a join goes through the pairs as the trace does: one more pair on both sides, if the
    one before had no rows. -/
theorem nextTile_shows {s : JoinState left.State right.State} {o : Operator} {fl fr : Feed}
    (hname : o.name = "join_merge") (hkeeps : o.keepsUntaken = true) (hready : o.ready = s.output)
    (hactive : s.exhausted = false) (hl : left.Gives s.left fl) (hr : right.Gives s.right fr)
    (hahead : o.ahead.next = (j.trace fr fl s.stats).next) :
    (nextTile j left right s).1 = o.pull.1 ∧
      Shows j left right (nextTile j left right s).2 o.pull.2 := by
  have hkept : o.kept = s.output := by rw [Operator.kept, if_pos hkeeps, hready]
  rw [o.pull_eq_next]
  fun_induction nextTile j left right s generalizing fl fr with
  | case1 s e r hright | case2 s r hright =>
      obtain ⟨fr', hfr, hr'⟩ := hr.next hright
      rw [j.next_trace, hfr] at hahead
      rw [hahead]
      exact ⟨rfl, hname, hkeeps, hkept, rfl, .inr ⟨hactive, fl, fr', hl, hr', rfl⟩⟩
  | case3 s r hright e hend =>
      obtain ⟨fr', hfr, hr'⟩ := hr.next hright
      simp only [j.next_trace, hfr, hend] at hahead
      rw [hahead]
      exact ⟨rfl, hname, hkeeps, hkept, rfl, .inr ⟨hactive, fl, fr', hl, hr', rfl⟩⟩
  | case4 s r hright hend =>
      obtain ⟨fr', hfr, -⟩ := hr.next hright
      simp only [j.next_trace, hfr, hend] at hahead
      rw [hahead]
      exact ⟨rfl, hname, hkeeps, hkept, rfl, .inl ⟨rfl, rfl⟩⟩
  | case5 s tr r hright e l hleft | case6 s tr r hright l hleft =>
      obtain ⟨fr', hfr, hr'⟩ := hr.next hright
      obtain ⟨fl', hfl, hl'⟩ := hl.next hleft
      simp only [j.next_trace, hfr, hfl] at hahead
      rw [hahead]
      exact ⟨rfl, hname, hkeeps, hkept, rfl, .inr ⟨hactive, fl', fr', hl', hr', rfl⟩⟩
  | case7 s tr r hright l hleft =>
      obtain ⟨fr', hfr, -⟩ := hr.next hright
      obtain ⟨fl', hfl, -⟩ := hl.next hleft
      simp only [j.next_trace, hfr, hfl] at hahead
      rw [hahead]
      exact ⟨rfl, hname, hkeeps, hkept, rfl, .inl ⟨rfl, rfl⟩⟩
  | case8 s tr r hright tl l hleft stats e hpair =>
      obtain ⟨fr', hfr, hr'⟩ := hr.next hright
      obtain ⟨fl', hfl, hl'⟩ := hl.next hleft
      simp only [j.next_trace, hfr, hfl, hpair] at hahead
      rw [hahead]
      exact ⟨rfl, hname, hkeeps, hkept, rfl, .inr ⟨hactive, fl', fr', hl', hr', rfl⟩⟩
  | case9 s tr r hright tl l hleft stats hpair ih =>
      obtain ⟨fr', hfr, hr'⟩ := hr.next hright
      obtain ⟨fl', hfl, hl'⟩ := hl.next hleft
      rw [j.next_trace, hfr] at hahead
      simp only [hfl, hpair] at hahead
      exact ih hready hactive hl' hr' hahead hkept
  | case10 s tr r hright tl l hleft stats t hpair =>
      obtain ⟨fr', hfr, hr'⟩ := hr.next hright
      obtain ⟨fl', hfl, hl'⟩ := hl.next hleft
      simp only [j.next_trace, hfr, hfl, hpair] at hahead
      rw [hahead]
      exact ⟨rfl, hname, hkeeps, rfl, rfl, .inr ⟨hactive, fl', fr', hl', hr', rfl⟩⟩

theorem isSimulation_join : (join j left right).IsSimulation (Shows j left right) where
  name h := h.name
  stats h := h.stats
  take h := ⟨h.ready.symm, h.name, h.keeps, rfl, h.stats, h.ahead⟩
  pull {s o} h := by
    obtain ⟨hname, hkeeps, hready, hstats, ⟨hexhausted, hahead⟩ |
      ⟨hactive, fl, fr, hl, hr, hahead⟩⟩ := h
    · have hkept : o.kept = s.output := by rw [Operator.kept, if_pos hkeeps, hready]
      have hpull : (join j left right).pull s = (.ok false, s) := if_pos hexhausted
      rw [hpull, o.pull_eq_next, hahead]
      exact ⟨rfl, hname, hkeeps, hkept, rfl, .inl ⟨hexhausted, rfl⟩⟩
    · have hpull : (join j left right).pull s = nextTile j left right s :=
        if_neg (Bool.eq_false_iff.1 hactive)
      rw [hpull]
      exact nextTile_shows hname hkeeps hready hactive hl hr (congrArg Trace.next hahead)

/-- The state of a leaf and the operator that shows it. -/
structure LeafState.Shows (name : String) (s : LeafState) (o : Operator) : Prop where
  name : o.name = name
  forgets : o.keepsUntaken = false
  ready : o.ready = s.output
  stats : o.stats = {}
  ahead : o.ahead = Operator.leafTrace (.ofList s.pending none)

theorem isSimulation_leaf (name : String) : (leaf name).IsSimulation (LeafState.Shows name) where
  name h := h.name
  stats h := h.stats
  take h := ⟨h.ready.symm, h.name, h.forgets, rfl, h.stats, h.ahead⟩
  pull {s o} h := by
    obtain ⟨hname, hforgets, hready, hstats, hahead⟩ := h
    have hkept : o.kept = none := by rw [Operator.kept, hforgets]; rfl
    rw [o.pull_eq_next, hahead]
    match s with
    | ⟨[], _⟩ | ⟨.withheld :: rest, _⟩ | ⟨.ended :: rest, _⟩ | ⟨.failed e :: rest, _⟩ =>
        exact ⟨rfl, hname, hforgets, hkept, rfl, rfl⟩
    | ⟨.tile t :: rest, _⟩ => exact ⟨rfl, hname, hforgets, rfl, rfl, rfl⟩

variable {s : e.State} {o : Operator} {I : e.State → Operator → Prop}

/-! ## Trees -/

/-- A leaf gives its answers in order, and then its end for ever. -/
theorem gives_leaf (name : String) (s : LeafState) :
    (leaf name).Gives s (.ofList s.pending none) := by
  refine ⟨fun s f => f = .ofList s.pending none, rfl, fun s f hf => ?_⟩
  subst hf
  match s with
  | ⟨[], _⟩ | ⟨.tile t :: rest, _⟩ | ⟨.withheld :: rest, _⟩ | ⟨.ended :: rest, _⟩
  | ⟨.failed e :: rest, _⟩ => exact ⟨rfl, rfl⟩

/-- If its tiles are taken at once, an executor gives the answers that its operator has ahead. -/
theorem IsSimulation.gives (hI : e.IsSimulation I) (h : I s o) (hplain : o.ahead.Plain) :
    e.Gives s o.ahead.feed := by
  refine ⟨fun s f => ∃ o, I s o ∧ o.ahead.Plain ∧ o.ahead.feed = f, ⟨o, h, hplain, rfl⟩, ?_⟩
  rintro s f ⟨o, h, hplain, rfl⟩
  obtain ⟨hanswer, hrest⟩ := hI.pull h
  have hplain' := Operator.plain_pull hplain
  rw [Trace.next_feed, ask, hanswer]
  rcases Operator.pull_cases hplain with ⟨err, st, hahead, hpull⟩ |
    ⟨err, st, rest, hahead, -, hpull⟩ | ⟨t, st, rest, hahead, -, hpull⟩
  · rw [hpull] at hrest hplain' ⊢
    rw [hahead]
    cases err with
    | none => exact ⟨rfl, _, hrest, hplain', congrArg Trace.feed hahead⟩
    | some err => exact ⟨rfl, _, hrest, hplain', congrArg Trace.feed hahead⟩
  · rw [hpull] at hrest hplain' ⊢
    rw [hahead]
    exact ⟨rfl, _, hrest, hplain', rfl⟩
  · obtain ⟨htake, htook⟩ := hI.take hrest
    rw [hpull] at htake htook hplain' ⊢
    rw [hahead]
    exact ⟨congrArg Answer.ofTaken htake, _, htook, hplain', rfl⟩

end Executor

namespace Source

theorem shows_start {j : Join} {left right : Source} (hl : left.executor.Gives left.start left.feed)
    (hr : right.executor.Gives right.start right.feed) :
    Executor.Shows j left.executor right.executor (start (.join j left right))
      (Operator.ofSource (.join j left right)) :=
  ⟨rfl, rfl, rfl, rfl, .inr ⟨rfl, left.feed, right.feed, hl, hr, rfl⟩⟩

/-- An executor below a join gives the feed of its source, however deep the tree is. -/
theorem gives_start (src : Source) : src.executor.Gives src.start src.feed := by
  induction src with
  | scan tiles => exact Executor.gives_leaf _ _
  | script answers => exact Executor.gives_leaf _ _
  | join j left right ihl ihr =>
      exact Executor.isSimulation_join.gives (shows_start ihl ihr) (j.trace_plain _ _ _)

/-- Scans, scripts and joins over whatever trees all start out as their operators show them. -/
theorem exists_simulation (src : Source) :
    ∃ I, src.executor.IsSimulation I ∧ I src.start (Operator.ofSource src) := by
  match src with
  | .scan tiles => exact ⟨_, Executor.isSimulation_leaf _, rfl, rfl, rfl, rfl, rfl⟩
  | .script answers => exact ⟨_, Executor.isSimulation_leaf _, rfl, rfl, rfl, rfl, rfl⟩
  | .join j left right =>
      exact ⟨_, Executor.isSimulation_join, shows_start left.gives_start right.gives_start⟩

end Source

/-! ## Calls -/

/-- What a caller sees of a call: the answer to a pull, or what was taken. -/
inductive Response where
  | pulled (answer : Except OperatorError Bool)
  | taken (tile : Option Tile)

/-- What a caller sees of some calls, each with the statistics after it. -/
def Operator.log (o : Operator) : List Call → List (Response × Stats)
  | [] => []
  | .pull :: calls => (.pulled o.pull.1, o.pull.2.stats) :: o.pull.2.log calls
  | .take :: calls => (.taken o.take.1, o.take.2.stats) :: o.take.2.log calls

namespace Executor

/-- What a caller sees of some calls of an executor, as of an operator. -/
def log (e : Executor) (s : e.State) : List Call → List (Response × Stats)
  | [] => []
  | .pull :: calls => (.pulled (e.pull s).1, e.stats (e.pull s).2) :: e.log (e.pull s).2 calls
  | .take :: calls => (.taken (e.take s).1, e.stats (e.take s).2) :: e.log (e.take s).2 calls

/-- Asks until there are no more tiles. -/
def drain (e : Executor) (s : e.State) : Except RunError (List Tile) :=
  match _hask : e.ask s with
  | (.failed err, _) => .error (.operator err)
  | (.withheld, _) => .error (.withheld e.name)
  | (.ended, _) => .ok []
  | (.tile t, s') => (e.drain s').map (t :: ·)
termination_by e.bound s
decreasing_by exact bound_ask _hask

variable {e : Executor} {s : e.State} {o : Operator} {I : e.State → Operator → Prop}

theorem IsSimulation.log_eq (hI : e.IsSimulation I) (h : I s o) (calls : List Call) :
    e.log s calls = o.log calls := by
  induction calls generalizing s o with
  | nil => rfl
  | cons call calls ih =>
      cases call with
      | pull =>
          obtain ⟨hanswer, hrest⟩ := hI.pull h
          rw [log, Operator.log, hanswer, ← hI.stats hrest, ih hrest]
      | take =>
          obtain ⟨htaken, hrest⟩ := hI.take h
          rw [log, Operator.log, htaken, ← hI.stats hrest, ih hrest]

theorem drain_eq (e : Executor) (s : e.State) :
    e.drain s = match e.ask s with
      | (.failed err, _) => .error (.operator err)
      | (.withheld, _) => .error (.withheld e.name)
      | (.ended, _) => .ok []
      | (.tile t, s') => (e.drain s').map (t :: ·) := by
  rw [drain]
  split <;> simp only [*]

theorem IsSimulation.drain_eq (hI : e.IsSimulation I) (h : I s o) : e.drain s = o.drain.1 := by
  induction hbound : e.bound s using Nat.strongRecOn generalizing s o with
  | ind n ih =>
      obtain ⟨hanswer, hpulled⟩ := hI.pull h
      obtain ⟨htake, htook⟩ := hI.take hpulled
      rw [e.drain_eq, ask, o.drain_eq, hanswer]
      match hpull : o.pull.1 with
      | .error err | .ok false => rfl
      | .ok true =>
          have hlt := Nat.lt_of_le_of_lt (e.bound_take _) (e.bound_pull s (hanswer.trans hpull))
          have hrest := ih _ (hbound ▸ hlt) htook rfl
          have htaken : (e.take (e.pull s).2).1 = o.pull.2.ready := htake
          rw [htaken]
          match hready : o.pull.2.ready with
          | none => exact congrArg (Except.error ∘ RunError.withheld) (hI.name hpulled).symm
          | some t => exact congrArg (Except.map (t :: ·)) hrest

end Executor

/-- Trees of executors and operators cannot be told apart: all calls are answered alike and leave
    the same statistics, and draining has the same result. -/
theorem Source.executor_agrees (src : Source) :
    (∀ calls, src.executor.log src.start calls = (Operator.ofSource src).log calls) ∧
      src.executor.drain src.start = (Operator.ofSource src).drain.1 := by
  obtain ⟨I, hI, h⟩ := src.exists_simulation
  exact ⟨hI.log_eq h, hI.drain_eq h⟩

end SortMerge

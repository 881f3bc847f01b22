import SortMerge.Proofs.Operator.Executor

set_option autoImplicit false

/-! # Pulling ends

The loop of a join over pairs without rows has no counter, and what it pulls may be a join with a
loop of its own. Here pulls and drains are described step by step, with nothing that bounds a loop.
A description is a finite tree, so there is one only if every loop in it ends, at whatever depth. In
every state of every tree of executors there is exactly one, for pulling as for draining. Each time
a loop goes round it has used up a tile of either input, so a join hands out no more tiles than
either of its inputs would. -/

namespace SortMerge

namespace Executor

/-! ## Descriptions -/

section Descriptions

variable {State L R : Type}

/-- How a pull can go. -/
abbrev Pulling (State : Type) : Type := State → Except OperatorError Bool → State → Prop

/-- How pulling and taking the tile at once can go. -/
abbrev Asking (State : Type) : Type := State → Answer → State → Prop

inductive Asks (pulls : Pulling State) (take : State → Option Tile × State) : Asking State
  | failed {s s' : State} {e : OperatorError} (pulled : pulls s (.error e) s') :
      Asks pulls take s (.failed e) s'
  | ended {s s' : State} (pulled : pulls s (.ok false) s') : Asks pulls take s .ended s'
  | taken {s s' : State} (pulled : pulls s (.ok true) s') :
      Asks pulls take s (.ofTaken (take s').1) (take s').2

/-- The loop of a join over pairs of tiles, given how its inputs can be asked. In the last case it
    goes round once more. -/
inductive Loops (j : Join) (left : Asking L) (right : Asking R) : Pulling (JoinState L R)
  | rightFailed {s : JoinState L R} {r : R} {e : OperatorError}
      (asked : right s.right (.failed e) r) : Loops j left right s (.error e) { s with right := r }
  | rightWithheld {s : JoinState L R} {r : R} (asked : right s.right .withheld r) :
      Loops j left right s (.error (.withheld .right)) { s with right := r }
  | rightEnded {s : JoinState L R} {r : R} {e : OperatorError} (asked : right s.right .ended r)
      (strict : j.rightEnd = some e) : Loops j left right s (.error e) { s with right := r }
  | rightEndedQuietly {s : JoinState L R} {r : R} (asked : right s.right .ended r)
      (quiet : j.rightEnd = none) :
      Loops j left right s (.ok false) { s with right := r, exhausted := true }
  | leftFailed {s : JoinState L R} {r : R} {l : L} {tr : Tile} {e : OperatorError}
      (askedRight : right s.right (.tile tr) r) (asked : left s.left (.failed e) l) :
      Loops j left right s (.error e) { s with left := l, right := r }
  | leftWithheld {s : JoinState L R} {r : R} {l : L} {tr : Tile}
      (askedRight : right s.right (.tile tr) r) (asked : left s.left .withheld l) :
      Loops j left right s (.error (.withheld .left)) { s with left := l, right := r }
  | leftEnded {s : JoinState L R} {r : R} {l : L} {tr : Tile}
      (askedRight : right s.right (.tile tr) r) (asked : left s.left .ended l) :
      Loops j left right s (.ok false) { s with left := l, right := r, exhausted := true }
  | pairFailed {s : JoinState L R} {r : R} {l : L} {tr tl : Tile} {stats : Stats}
      {e : OperatorError} (askedRight : right s.right (.tile tr) r)
      (askedLeft : left s.left (.tile tl) l)
      (merged : j.joinPair tl tr s.stats = (stats, .error e)) :
      Loops j left right s (.error e) { s with left := l, right := r, stats }
  | found {s : JoinState L R} {r : R} {l : L} {tr tl t : Tile} {stats : Stats}
      (askedRight : right s.right (.tile tr) r) (askedLeft : left s.left (.tile tl) l)
      (merged : j.joinPair tl tr s.stats = (stats, .ok (some t))) :
      Loops j left right s (.ok true)
        { s with left := l, right := r, output := some t, stats := stats.addTile }
  | again {s s' : JoinState L R} {r : R} {l : L} {tr tl : Tile} {stats : Stats}
      {a : Except OperatorError Bool} (askedRight : right s.right (.tile tr) r)
      (askedLeft : left s.left (.tile tl) l)
      (merged : j.joinPair tl tr s.stats = (stats, .ok none))
      (rest : Loops j left right { s with left := l, right := r, stats := stats.addEmpty } a s') :
      Loops j left right s a s'

/-- A join does not enter its loop any more once it is exhausted. -/
inductive JoinPulls (j : Join) (left : Asking L) (right : Asking R) : Pulling (JoinState L R)
  | exhausted {s : JoinState L R} (ended : s.exhausted = true) :
      JoinPulls j left right s (.ok false) s
  | active {s s' : JoinState L R} {a : Except OperatorError Bool} (active : s.exhausted = false)
      (loop : Loops j left right s a s') : JoinPulls j left right s a s'

/-- How draining can go: the tiles that are taken, and the error that stops it if there is one. -/
inductive Drains (name : String) (asks : Asking State) :
    State → List Tile → Option RunError → State → Prop
  | failed {s s' : State} {e : OperatorError} (asked : asks s (.failed e) s') :
      Drains name asks s [] (some (.operator e)) s'
  | withheld {s s' : State} (asked : asks s .withheld s') :
      Drains name asks s [] (some (.withheld name)) s'
  | ended {s s' : State} (asked : asks s .ended s') : Drains name asks s [] none s'
  | tile {s s' s'' : State} {t : Tile} {ts : List Tile} {e : Option RunError}
      (asked : asks s (.tile t) s') (rest : Drains name asks s' ts e s'') :
      Drains name asks s (t :: ts) e s''

end Descriptions

/-! ## Pulls -/

/-- What the executor does is described, and nothing else is. -/
def Follows (e : Executor) (pulls : Pulling e.State) : Prop :=
  ∀ s a s', pulls s a s' ↔ e.pull s = (a, s')

theorem Follows.asks_iff {e : Executor} {pulls : Pulling e.State} (h : e.Follows pulls)
    {s s' : e.State} {a : Answer} : Asks pulls e.take s a s' ↔ e.ask s = (a, s') := by
  rw [ask]
  constructor
  · rintro (hpull | hpull | hpull)
    · rw [(h _ _ _).1 hpull]
    · rw [(h _ _ _).1 hpull]
    · rw [(h _ _ _).1 hpull]
  · intro hask
    have hpull := (h s (e.pull s).1 (e.pull s).2).2 rfl
    rcases hanswer : (e.pull s).1 with err | (_ | _)
    · rw [hanswer] at hask hpull
      cases hask
      exact .failed hpull
    · rw [hanswer] at hask hpull
      cases hask
      exact .ended hpull
    · rw [hanswer] at hask hpull
      cases hask
      exact .taken hpull

section Loops

variable {left right : Executor} {j : Join} {askLeft : Asking left.State}
  {askRight : Asking right.State}

/-- The loop by the answers of the inputs, without the bound that ends it. -/
theorem nextTile_eq (s : JoinState left.State right.State) :
    nextTile j left right s =
      match right.ask s.right with
      | (.failed e, r) => (.error e, { s with right := r })
      | (.withheld, r) => (.error (.withheld .right), { s with right := r })
      | (.ended, r) =>
        match j.rightEnd with
        | some e => (.error e, { s with right := r })
        | none => (.ok false, { s with right := r, exhausted := true })
      | (.tile tr, r) =>
        match left.ask s.left with
        | (.failed e, l) => (.error e, { s with left := l, right := r })
        | (.withheld, l) => (.error (.withheld .left), { s with left := l, right := r })
        | (.ended, l) => (.ok false, { s with left := l, right := r, exhausted := true })
        | (.tile tl, l) =>
          match j.joinPair tl tr s.stats with
          | (stats, .error e) => (.error e, { s with left := l, right := r, stats })
          | (stats, .ok none) =>
            nextTile j left right { s with left := l, right := r, stats := stats.addEmpty }
          | (stats, .ok (some t)) =>
            (.ok true,
              { s with left := l, right := r, output := some t, stats := stats.addTile }) := by
  rw [nextTile]
  split
  all_goals
    next hask =>
      rewrite [hask]
      rfl

/-- What the loop does is described, and the description is finite because each round but the last
    uses up a right tile. -/
theorem loops_nextTile (hl : ∀ {s a s'}, left.ask s = (a, s') → askLeft s a s')
    (hr : ∀ {s a s'}, right.ask s = (a, s') → askRight s a s')
    (s : JoinState left.State right.State) :
    Loops j askLeft askRight s (nextTile j left right s).1 (nextTile j left right s).2 := by
  fun_induction nextTile j left right s with
  | case1 s e r hask => exact .rightFailed (hr hask)
  | case2 s r hask => exact .rightWithheld (hr hask)
  | case3 s r hask e hend => exact .rightEnded (hr hask) hend
  | case4 s r hask hend => exact .rightEndedQuietly (hr hask) hend
  | case5 s tr r hask e l hask' => exact .leftFailed (hr hask) (hl hask')
  | case6 s tr r hask l hask' => exact .leftWithheld (hr hask) (hl hask')
  | case7 s tr r hask l hask' => exact .leftEnded (hr hask) (hl hask')
  | case8 s tr r hask tl l hask' stats e hpair => exact .pairFailed (hr hask) (hl hask') hpair
  | case9 s tr r hask tl l hask' stats hpair ih => exact .again (hr hask) (hl hask') hpair ih
  | case10 s tr r hask tl l hask' stats t hpair => exact .found (hr hask) (hl hask') hpair

/-- Nothing else is described. -/
theorem Loops.nextTile_eq (hl : ∀ {s a s'}, askLeft s a s' → left.ask s = (a, s'))
    (hr : ∀ {s a s'}, askRight s a s' → right.ask s = (a, s'))
    {s s' : JoinState left.State right.State} {a : Except OperatorError Bool}
    (h : Loops j askLeft askRight s a s') : nextTile j left right s = (a, s') := by
  induction h with
  | rightFailed hask | rightWithheld hask => rw [Executor.nextTile_eq, hr hask]
  | rightEnded hask hend | rightEndedQuietly hask hend =>
      simp only [Executor.nextTile_eq, hr hask, hend]
  | leftFailed hask hask' | leftWithheld hask hask' | leftEnded hask hask' =>
      simp only [Executor.nextTile_eq, hr hask, hl hask']
  | pairFailed hask hask' hpair | found hask hask' hpair =>
      simp only [Executor.nextTile_eq, hr hask, hl hask', hpair]
  | again hask hask' hpair _ ih =>
      rw [Executor.nextTile_eq, hr hask]
      simp only [hl hask', hpair]
      exact ih

theorem follows_join {pullsLeft : Pulling left.State} {pullsRight : Pulling right.State}
    (hl : left.Follows pullsLeft) (hr : right.Follows pullsRight) :
    (join j left right).Follows
      (JoinPulls j (Asks pullsLeft left.take) (Asks pullsRight right.take)) := by
  intro s a s'
  constructor
  · rintro (hover | ⟨hactive, hloop⟩)
    · exact if_pos hover
    · exact (if_neg (by simp [hactive])).trans (hloop.nextTile_eq hl.asks_iff.1 hr.asks_iff.1)
  · intro hpull
    match hexhausted : s.exhausted with
    | true =>
        obtain ⟨rfl, rfl⟩ := Prod.mk.inj ((if_pos hexhausted).symm.trans hpull)
        exact .exhausted hexhausted
    | false =>
        have hloop := loops_nextTile (j := j) hl.asks_iff.2 hr.asks_iff.2 s
        rw [(if_neg (by simp [hexhausted])).symm.trans hpull] at hloop
        exact .active hexhausted hloop

end Loops

/-! ## Drains -/

section Drains

variable {e : Executor} {asks : Asking e.State} {s s' : e.State} {ts : List Tile}
  {err : Option RunError}

/-- Draining ends, because each tile that is taken is one of those that pulls still report. -/
theorem exists_drains (h : ∀ {s a s'}, e.ask s = (a, s') → asks s a s') (s : e.State) :
    ∃ ts err s', Drains e.name asks s ts err s' := by
  induction hbound : e.bound s using Nat.strongRecOn generalizing s with
  | ind n ih =>
      match hask : e.ask s with
      | (.failed err, s') => exact ⟨[], _, s', .failed (h hask)⟩
      | (.withheld, s') => exact ⟨[], _, s', .withheld (h hask)⟩
      | (.ended, s') => exact ⟨[], _, s', .ended (h hask)⟩
      | (.tile t, s') =>
          obtain ⟨ts, err, s'', hrest⟩ := ih _ (hbound ▸ bound_ask hask) s' rfl
          exact ⟨t :: ts, err, s'', .tile (h hask) hrest⟩

/-- What draining comes to: the tiles, unless an error stopped it. -/
def drained (ts : List Tile) : Option RunError → Except RunError (List Tile)
  | none => .ok ts
  | some e => .error e

theorem Drains.drain_eq (h : ∀ {s a s'}, asks s a s' → e.ask s = (a, s'))
    (hdrains : Drains e.name asks s ts err s') : e.drain s = drained ts err := by
  induction hdrains with
  | failed hask | withheld hask | ended hask => rw [e.drain_eq, h hask]; rfl
  | @tile s s' s'' t ts err hask _ ih =>
      rw [e.drain_eq, h hask]
      simp only [ih]
      cases err <;> rfl

end Drains

/-! ## Tiles taken in a row -/

/-- So many tiles can be taken one after the other. -/
inductive Takes {State : Type} (asks : Asking State) : State → Nat → State → Prop
  | none (s : State) : Takes asks s 0 s
  | tile {s s' s'' : State} {t : Tile} {n : Nat} (asked : asks s (.tile t) s')
      (rest : Takes asks s' n s'') : Takes asks s (n + 1) s''

theorem Takes.append {State : Type} {asks : Asking State} {s s' s'' : State} {m n : Nat}
    (h : Takes asks s m s') (h' : Takes asks s' n s'') : Takes asks s (m + n) s'' := by
  induction h with
  | none s => rwa [Nat.zero_add]
  | tile hask _ ih =>
      rw [Nat.add_right_comm]
      exact .tile hask (ih h')

/-- Draining gives all tiles that can be taken in a row. -/
theorem Takes.le_length {e : Executor} {asks : Asking e.State}
    (h : ∀ {s a s'}, asks s a s' → e.ask s = (a, s')) {s s' s'' : e.State} {n : Nat}
    {ts : List Tile} {err : Option RunError} (htakes : Takes asks s n s')
    (hdrains : Drains e.name asks s ts err s'') : n ≤ ts.length := by
  induction htakes generalizing ts with
  | none s => exact Nat.zero_le _
  | tile hask _ ih =>
      cases hdrains with
      | failed hask' | withheld hask' | ended hask' =>
          have heq := (h hask).symm.trans (h hask')
          cases heq
      | tile hask' hrest =>
          have heq := (h hask).symm.trans (h hask')
          cases heq
          exact Nat.succ_le_succ (ih hrest)

section Join

variable {L R : Type} {j : Join} {left : Asking L} {right : Asking R} {s s' : JoinState L R}

/-- To find a tile, the loop takes as many tiles from either input as it goes round. -/
theorem Loops.takes (h : Loops j left right s (.ok true) s') :
    ∃ n, Takes left s.left (n + 1) s'.left ∧ Takes right s.right (n + 1) s'.right := by
  generalize ha : (Except.ok true : Except OperatorError Bool) = a at h
  induction h with
  | found hright hleft => exact ⟨0, .tile hleft (.none _), .tile hright (.none _)⟩
  | again hright hleft _ _ ih =>
      obtain ⟨n, hl, hr⟩ := ih ha
      exact ⟨n + 1, .tile hleft hl, .tile hright hr⟩
  | _ => cases ha

/-- Draining a join takes at least as many tiles in a row from either input as it gives. -/
theorem Drains.takes {name : String} {take : JoinState L R → Option Tile × JoinState L R}
    (htake : ∀ s, (take s).2.left = s.left ∧ (take s).2.right = s.right) {ts : List Tile}
    {err : Option RunError}
    (h : Drains name (Asks (JoinPulls j left right) take) s ts err s') :
    ∃ n l r, ts.length ≤ n ∧ Takes left s.left n l ∧ Takes right s.right n r := by
  induction h with
  | failed | withheld | ended => exact ⟨0, _, _, Nat.le_refl _, .none _, .none _⟩
  | @tile s s₁ s₂ t ts err hask _ ih =>
      obtain ⟨n, l, r, hn, hl, hr⟩ := ih
      generalize ha : Answer.tile t = a at hask
      cases hask with
      | failed | ended => cases ha
      | @taken _ s₁ hpull =>
          obtain ⟨htl, htr⟩ := htake s₁
          rw [htl] at hl
          rw [htr] at hr
          cases hpull with
          | active _ hloop =>
              obtain ⟨m, hl', hr'⟩ := hloop.takes
              refine ⟨m + 1 + n, l, r, ?_, hl'.append hl, hr'.append hr⟩
              rw [List.length_cons]
              omega

end Join

end Executor

/-! ## Trees -/

/-- The state of an executor after some calls. -/
def Executor.after (e : Executor) (s : e.State) : List Call → e.State
  | [] => s
  | .pull :: calls => e.after (e.pull s).2 calls
  | .take :: calls => e.after (e.take s).2 calls

theorem Executor.IsSimulation.after {e : Executor} {I : e.State → Operator → Prop}
    (hI : e.IsSimulation I) {s : e.State} {o : Operator} (h : I s o) (calls : List Call) :
    I (e.after s calls) (o.after calls) := by
  induction calls generalizing s o with
  | nil => exact h
  | cons call calls ih =>
      cases call with
      | pull => exact ih (hI.pull h).2
      | take => exact ih (hI.take h).2

namespace Source

/-- How a pull of a tree of executors can go. -/
def Pulls : (src : Source) → Executor.Pulling src.executor.State
  | .scan _ => fun s a s' => Executor.LeafState.pull s = (a, s')
  | .script _ => fun s a s' => Executor.LeafState.pull s = (a, s')
  | .join j left right =>
    Executor.JoinPulls j (Executor.Asks left.Pulls left.executor.take)
      (Executor.Asks right.Pulls right.executor.take)

/-- How draining a tree of executors can go. -/
def Drains (src : Source) :
    src.executor.State → List Tile → Option RunError → src.executor.State → Prop :=
  Executor.Drains src.executor.name (Executor.Asks src.Pulls src.executor.take)

/-- The calls can lead from the one state to the other; the pulls among them all return. -/
def Reaches (src : Source) : List Call → src.executor.State → src.executor.State → Prop
  | [], s, s' => s = s'
  | .pull :: calls, s, s' => ∃ a t, src.Pulls s a t ∧ src.Reaches calls t s'
  | .take :: calls, s, s' => src.Reaches calls (src.executor.take s).2 s'

theorem follows_pulls (src : Source) : src.executor.Follows src.Pulls := by
  induction src with
  | scan tiles => exact fun s a s' => Iff.rfl
  | script answers => exact fun s a s' => Iff.rfl
  | join j left right ihl ihr => exact Executor.follows_join ihl ihr

theorem reaches_iff (src : Source) {calls : List Call} {s s' : src.executor.State} :
    src.Reaches calls s s' ↔ src.executor.after s calls = s' := by
  induction calls generalizing s with
  | nil => exact Iff.rfl
  | cons call calls ih =>
      cases call with
      | take => exact ih
      | pull =>
          simp only [Reaches, src.follows_pulls _ _ _, ih, Executor.after]
          constructor
          · rintro ⟨a, t, hpull, hafter⟩
            rwa [hpull]
          · intro hafter
            exact ⟨_, _, rfl, hafter⟩

end Source

/-- In every state of every tree of executors a pull returns, and so does draining. Whatever calls
    are made first, their pulls return too, and then a pull and draining come to what the operator
    of the source says. Draining a join, in whatever state, never gives more tiles than draining
    either of its inputs would have given. -/
theorem pulling_ends :
    (∀ (src : Source) (s : src.executor.State),
        (∃ a t, src.Pulls s a t) ∧ ∃ ts err t, src.Drains s ts err t) ∧
      (∀ (src : Source) (calls : List Call), (∃ s, src.Reaches calls src.start s) ∧
        ∀ s, src.Reaches calls src.start s →
          (∀ a t, src.Pulls s a t → a = ((Operator.ofSource src).after calls).pull.1) ∧
          ∀ ts err t, src.Drains s ts err t →
            Executor.drained ts err = ((Operator.ofSource src).after calls).drain.1) ∧
      ∀ (j : Join) (left right : Source)
        (s : Executor.JoinState left.executor.State right.executor.State) (ts tl tr : List Tile),
        (∃ err t, (Source.join j left right).Drains s ts err t) →
          (∃ err t, left.Drains s.left tl err t) → (∃ err t, right.Drains s.right tr err t) →
            ts.length ≤ tl.length ∧ ts.length ≤ tr.length := by
  refine ⟨fun src s => ⟨?_, ?_⟩, fun src calls => ?_, ?_⟩
  · exact ⟨_, _, (src.follows_pulls s _ _).2 rfl⟩
  · exact Executor.exists_drains src.follows_pulls.asks_iff.2 s
  · obtain ⟨I, hI, h⟩ := src.exists_simulation
    have hafter := hI.after h calls
    refine ⟨⟨_, src.reaches_iff.2 rfl⟩, fun s hreaches => ?_⟩
    rw [src.reaches_iff.1 hreaches] at hafter
    refine ⟨fun a t hpull => ?_, fun ts err t hdrains => ?_⟩
    · rw [← (hI.pull hafter).1, (src.follows_pulls _ _ _).1 hpull]
    · rw [← hdrains.drain_eq src.follows_pulls.asks_iff.1, hI.drain_eq hafter]
  · rintro j left right s ts tl tr ⟨err, t, hdrains⟩ ⟨_, _, hleft⟩ ⟨_, _, hright⟩
    obtain ⟨n, l, r, hn, hl, hr⟩ := Executor.Drains.takes (fun _ => ⟨rfl, rfl⟩) hdrains
    exact ⟨hn.trans (hl.le_length left.follows_pulls.asks_iff.1 hleft),
      hn.trans (hr.le_length right.follows_pulls.asks_iff.1 hright)⟩

end SortMerge

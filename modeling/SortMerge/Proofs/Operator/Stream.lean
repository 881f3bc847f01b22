import SortMerge.Operator
import SortMerge.Proofs.Operator.Calls

set_option autoImplicit false

/-! # Joining two streams of tiles

Draining the join of two scans joins the first tiles of both, then the second ones, and so on. Pairs
without rows are passed over inside one pull; the first pair that fails ends the run; and if none
does, the run ends where the shorter scan does, the right one being asked first. -/

namespace SortMerge

/-- The outcomes of the pairs of tiles that stand at the same place of two sequences. -/
def Join.outcomes (j : Join) (ls rs : List Tile) : List (Except OperatorError (Option Tile)) :=
  List.zipWith j.outcome ls rs

/-- The tile of an outcome, if there is one. -/
def outputTile? : Except OperatorError (Option Tile) → Option Tile
  | .ok t => t
  | .error _ => none

/-- The result of a run from a pair with the given outcome on; `rest` is what later pairs give. -/
def resultWith (rest : Except RunError (List Tile)) :
    Except OperatorError (Option Tile) → Except RunError (List Tile)
  | .error e => .error (.operator e)
  | .ok none => rest
  | .ok (some t) => rest.map (t :: ·)

variable {j : Join} {o : Operator} {s : Stats}

/-! ## The trace of a join of two scans -/

/-- The answers that a scan has ahead while the given tiles are left. -/
def scanFeed (tiles : List Tile) : Feed := .ofList (tiles.map .tile) none

theorem trace_right_nil (ls : List Tile) :
    j.trace (scanFeed []) (scanFeed ls) s = .stop (j.rightEnd, s) := rfl

theorem trace_left_nil (r : Tile) (rs : List Tile) :
    j.trace (scanFeed (r :: rs)) (scanFeed []) s = .stop (none, s) := rfl

/-- The first pair is answered by its outcome, or passed over if it has no rows. -/
theorem trace_cons (l r : Tile) (ls rs : List Tile) :
    ∃ s', j.trace (scanFeed (r :: rs)) (scanFeed (l :: ls)) s
      = traceWith s' (j.trace (scanFeed rs) (scanFeed ls) s') (j.outcome l r) :=
  j.trace_eq_round ⟨scanFeed (r :: rs), scanFeed (l :: ls)⟩ s

/-! ## Draining -/

namespace Operator

theorem drain_stop {e : Option OperatorError} (h : o.ahead = .stop (e, s)) :
    o.drain.1 = e.elim (.ok []) fun e => .error (.operator e) := by
  rw [drain, h, drainAlong, pull, h]
  cases e <;> rfl

theorem drain_failed {e : OperatorError} {rest : Trace} (h : o.ahead = .step (.failed e, s) rest) :
    o.drain.1 = .error (.operator e) := by
  rw [drain, h, drainAlong, pull, h]

/-- A tile is taken, and the rest is drained from an operator that has the rest ahead. -/
theorem drain_tile {t : Tile} {rest : Trace} (h : o.ahead = .step (.tile t, s) rest) :
    ∃ o' : Operator, o'.ahead = rest ∧ o.drain.1 = o'.drain.1.map (t :: ·) := by
  refine ⟨{ o with ahead := rest, ready := none, stats := s }, rfl, ?_⟩
  rw [drain, h, drainAlong, pull, h]
  simp only [take, drain]
  generalize drainAlong rest _ = result
  obtain ⟨e | ts, o'⟩ := result <;> rfl

/-- The operator joins what two scans have left. -/
def Joins (j : Join) (ls rs : List Tile) (o : Operator) : Prop :=
  ∃ s, o.ahead = j.trace (scanFeed rs) (scanFeed ls) s

theorem joins_scans (j : Join) (ls rs : List Tile) :
    (ofSource (.join j (.scan ls) (.scan rs))).Joins j ls rs := ⟨{}, rfl⟩

variable {l r : Tile} {ls rs : List Tile}

/-- The right scan is asked first, so its end is met even where the left scan ends too. -/
theorem drain_right_nil (h : Joins j ls [] o) :
    o.drain.1 = if j.config.strictRightExhaustion = true then .error (.operator .rightExhausted)
      else .ok [] := by
  obtain ⟨s, hs⟩ := h
  rw [trace_right_nil] at hs
  rw [drain_stop hs, Join.rightEnd]
  split <;> rfl

theorem drain_left_nil (h : Joins j [] (r :: rs) o) : o.drain.1 = .ok [] := by
  obtain ⟨s, hs⟩ := h
  rw [trace_left_nil] at hs
  rw [drain_stop hs, Option.elim_none]

/-- The outcome of the first pair decides how the run goes on. -/
theorem drain_cons (h : Joins j (l :: ls) (r :: rs) o) :
    ∃ o', Joins j ls rs o' ∧ o.drain.1 = resultWith o'.drain.1 (j.outcome l r) := by
  obtain ⟨s, hs⟩ := h
  obtain ⟨s', htrace⟩ := trace_cons (j := j) (s := s) l r ls rs
  rw [htrace] at hs
  match hout : j.outcome l r with
  | .error e =>
      rw [hout] at hs
      exact ⟨{ o with ahead := j.trace (scanFeed rs) (scanFeed ls) s' }, ⟨s', rfl⟩, drain_failed hs⟩
  | .ok none =>
      -- the retry belongs to the same pull, so the operator already stands at the next pair
      rw [hout] at hs
      exact ⟨o, ⟨s', hs⟩, rfl⟩
  | .ok (some t) =>
      rw [hout] at hs
      obtain ⟨o', ho', hdrain⟩ := drain_tile hs
      exact ⟨o', ⟨s', ho'⟩, hdrain⟩

/-- The first pair that fails ends the run with its error. -/
theorem drain_of_first_error {i : Nat} {e : OperatorError} (h : Joins j ls rs o)
    (hi : (j.outcomes ls rs)[i]? = some (.error e))
    (hfirst : ∀ k < i, ∀ e', (j.outcomes ls rs)[k]? ≠ some (.error e')) :
    o.drain.1 = .error (.operator e) := by
  induction i generalizing ls rs o with
  | zero =>
      match ls, rs with
      | [], _ | _ :: _, [] => cases hi
      | l :: ls, r :: rs =>
          obtain ⟨o', -, hdrain⟩ := drain_cons h
          have hout : j.outcome l r = .error e := Option.some.inj hi
          rw [hdrain, hout, resultWith]
  | succ i ih =>
      match ls, rs with
      | [], _ | _ :: _, [] => cases hi
      | l :: ls, r :: rs =>
          obtain ⟨o', hjoins, hdrain⟩ := drain_cons h
          have hrest := ih hjoins hi fun k hk e' => hfirst (k + 1) (by omega) e'
          match hout : j.outcome l r with
          | .error e' => exact absurd (congrArg some hout) (hfirst 0 (by omega) e')
          | .ok none => rw [hdrain, hout, hrest, resultWith]
          | .ok (some t) =>
              rw [hdrain, hout, hrest, resultWith]
              rfl

/-- If no pair fails, all tiles are drained, unless it is an error that the right scan ran out. -/
theorem drain_of_all_ok (h : Joins j ls rs o) (hok : ∀ out ∈ j.outcomes ls rs, ∃ t, out = .ok t) :
    o.drain.1 = if j.config.strictRightExhaustion = true ∧ rs.length ≤ ls.length
      then .error (.operator .rightExhausted)
      else .ok ((j.outcomes ls rs).filterMap outputTile?) := by
  induction rs generalizing ls o with
  | nil =>
      rw [drain_right_nil h]
      simp [Join.outcomes]
  | cons r rs ih =>
      match ls with
      | [] =>
          rw [drain_left_nil h]
          simp [Join.outcomes]
      | l :: ls =>
          obtain ⟨o', hjoins, hdrain⟩ := drain_cons h
          have hrest := ih hjoins fun out hout => hok out (List.mem_cons_of_mem _ hout)
          obtain ⟨t, ht⟩ := hok _ List.mem_cons_self
          rw [hdrain, ht]
          simp only [hrest, Join.outcomes, List.zipWith_cons_cons, List.filterMap_cons, ht,
            outputTile?, List.length_cons, Nat.add_le_add_iff_right]
          cases t with
          | none => rfl
          | some t =>
              by_cases hend : j.config.strictRightExhaustion = true ∧ rs.length ≤ ls.length
              · simp only [if_pos hend]
                rfl
              · simp only [if_neg hend]
                rfl

/-- A run that goes through has met no pair that fails. -/
theorem ok_of_drain (h : Joins j ls rs o) {tiles : List Tile} (hdrain : o.drain.1 = .ok tiles) :
    ∀ out ∈ j.outcomes ls rs, ∃ t, out = .ok t := by
  induction rs generalizing ls o tiles with
  | nil => simp [Join.outcomes]
  | cons r rs ih =>
      match ls with
      | [] => simp [Join.outcomes]
      | l :: ls =>
          obtain ⟨o', hjoins, hcons⟩ := drain_cons h
          rw [hdrain] at hcons
          rw [Join.outcomes, List.zipWith_cons_cons, List.forall_mem_cons]
          match hout : j.outcome l r with
          | .error e =>
              rw [hout] at hcons
              cases hcons
          | .ok none =>
              rw [hout] at hcons
              exact ⟨⟨none, rfl⟩, ih hjoins hcons.symm⟩
          | .ok (some t) =>
              rw [hout, resultWith] at hcons
              cases hrest : o'.drain.1 with
              | error e =>
                  rw [hrest] at hcons
                  cases hcons
              | ok rest => exact ⟨⟨some t, rfl⟩, ih hjoins hrest⟩

end Operator

/-- Draining the join of two scans goes through the pairs of tiles at equal places in order. The
    first outcome that is an error is the result. If there is none, the result is an error exactly
    if the right scan is not the longer one and its end counts as one, and otherwise the tiles that
    the pairs give, in order. -/
theorem drain_join_scans (j : Join) (ls rs : List Tile) :
    (∀ (i : Nat) (e : OperatorError), (j.outcomes ls rs)[i]? = some (.error e) →
        (∀ k < i, ∀ e' : OperatorError, (j.outcomes ls rs)[k]? ≠ some (.error e')) →
        (Operator.ofSource (.join j (.scan ls) (.scan rs))).drain.1 = .error (.operator e)) ∧
      ((∀ out ∈ j.outcomes ls rs, ∃ t, out = .ok t) →
        (Operator.ofSource (.join j (.scan ls) (.scan rs))).drain.1 =
          if j.config.strictRightExhaustion = true ∧ rs.length ≤ ls.length
          then .error (.operator .rightExhausted)
          else .ok ((j.outcomes ls rs).filterMap outputTile?)) := by
  have hjoins : (Operator.ofSource (.join j (.scan ls) (.scan rs))).Joins j ls rs := ⟨{}, rfl⟩
  exact ⟨fun i e hi hfirst => Operator.drain_of_first_error hjoins hi hfirst,
    fun hok => Operator.drain_of_all_ok hjoins hok⟩

end SortMerge

import SortMerge.Proofs.Operator.Finality
import SortMerge.Proofs.Operator.Stream

set_option autoImplicit false

/-! # Tiles that pulls find

What a caller gets out of an operator are the tiles that its pulls find, whether or not they are
taken. Scans and joins are `Plain`: each answer they have ahead is a tile or a failure, so a pull
that finds a tile makes that tile ready, and any other pull leaves ready at most what was ready
before. Draining is nothing but pulling and taking in turn. -/

namespace SortMerge

/-- Every answer is a tile or a failure: no tile is withheld, and nothing comes after an end. -/
def Trace.Plain (t : Trace) : Prop :=
  ∀ a ∈ t.toList, (∃ tile, a.1 = .tile tile) ∨ ∃ e, a.1 = .failed e

/-- The first answer of a trace, with the statistics after it, and what follows. -/
def Trace.next : Trace → (Answer × Stats) × Trace
  | .stop (none, s) => ((.ended, s), .stop (none, s))
  | .stop (some e, s) => ((.failed e, s), .stop (some e, s))
  | .step a rest => (a, rest)

namespace Trace

variable {a : Answer × Stats} {rest : Trace}

theorem plain_stop (e : Option OperatorError × Stats) : Plain (.stop e) := by
  intro a ha
  cases ha

theorem plain_tile {t : Tile} {s : Stats} (h : Plain rest) : Plain (.step (.tile t, s) rest) :=
  List.forall_mem_cons.2 ⟨.inl ⟨t, rfl⟩, h⟩

theorem plain_failed {e : OperatorError} {s : Stats} (h : Plain rest) :
    Plain (.step (.failed e, s) rest) :=
  List.forall_mem_cons.2 ⟨.inr ⟨e, rfl⟩, h⟩

theorem Plain.tail (h : Plain (.step a rest)) : Plain rest := (List.forall_mem_cons.1 h).2

end Trace

/-- A join passes failures on and turns whatever else it cannot use into failures of its own. -/
theorem Join.trace_plain (j : Join) (right left : Feed) (s : Stats) :
    (j.trace right left s).Plain := by
  fun_induction Join.trace j right left s
  case case1 | case2 | case6 | case7 | case9 => exact Trace.plain_stop _
  case case3 ih | case4 ih | case5 ih | case8 ih | case10 ih | case11 ih | case12 ih =>
    exact Trace.plain_failed ih
  case case13 ih => exact ih
  case case14 ih => exact Trace.plain_tile ih

namespace Operator

variable {o : Operator}

/-- Scans and joins have plain traces ahead of them. -/
theorem plain_ofSource {src : Source} (h : ∀ answers, src ≠ .script answers) :
    (ofSource src).ahead.Plain := by
  match src with
  | .scan tiles =>
      intro a ha
      simp only [ofSource, leafTrace, Source.feed, Trail.toList_map, Trail.toList_ofList,
        List.map_map, List.mem_map] at ha
      obtain ⟨t, -, rfl⟩ := ha
      exact .inl ⟨t, rfl⟩
  | .script answers => exact absurd rfl (h answers)
  | .join j left right => exact j.trace_plain right.feed left.feed {}

/-! ## One pull -/

/-- A pull uses up the first answer that is ahead. -/
theorem pull_eq_next (o : Operator) :
    o.pull =
      match o.ahead.next with
      | ((.tile t, s), rest) => (.ok true, { o with ahead := rest, ready := some t, stats := s })
      | ((.withheld, s), rest) => (.ok true, { o with ahead := rest, ready := o.kept, stats := s })
      | ((.ended, s), rest) => (.ok false, { o with ahead := rest, ready := o.kept, stats := s })
      | ((.failed e, s), rest) =>
        (.error e, { o with ahead := rest, ready := o.kept, stats := s }) := by
  fun_cases pull o <;> simp [*, Trace.next]

/-- All that a pull can do: there is nothing more ahead, it fails, or it finds a tile, which is then
    ready whatever was ready before. -/
theorem pull_cases (h : o.ahead.Plain) :
    (∃ e s, o.ahead = .stop (e, s) ∧
        o.pull = (e.elim (.ok false) .error, { o with ready := o.kept, stats := s })) ∨
      (∃ e s, ∃ rest : Trace, o.ahead = .step (.failed e, s) rest ∧ rest.Plain ∧
        o.pull = (.error e, { o with ahead := rest, ready := o.kept, stats := s })) ∨
      ∃ t s, ∃ rest : Trace, o.ahead = .step (.tile t, s) rest ∧ rest.Plain ∧
        o.pull = (.ok true, { o with ahead := rest, ready := some t, stats := s }) := by
  match hahead : o.ahead with
  | .stop (none, s) =>
      refine .inl ⟨none, s, rfl, ?_⟩
      rw [pull, hahead]
      rfl
  | .stop (some e, s) =>
      refine .inl ⟨some e, s, rfl, ?_⟩
      rw [pull, hahead]
      rfl
  | .step (.failed e, s) rest =>
      refine .inr (.inl ⟨e, s, rest, rfl, (hahead ▸ h).tail, ?_⟩)
      rw [pull, hahead]
  | .step (.tile t, s) rest =>
      refine .inr (.inr ⟨t, s, rest, rfl, (hahead ▸ h).tail, ?_⟩)
      rw [pull, hahead]
  | .step (.withheld, s) rest | .step (.ended, s) rest =>
      rw [hahead] at h
      rcases h _ List.mem_cons_self with ⟨t, ht⟩ | ⟨e, he⟩
      · cases ht
      · cases he

theorem plain_pull (h : o.ahead.Plain) : o.pull.2.ahead.Plain := by
  rcases pull_cases h with ⟨e, s, -, hpull⟩ | ⟨e, s, rest, -, hrest, hpull⟩ |
    ⟨t, s, rest, -, hrest, hpull⟩
  · rw [hpull]
    exact h
  · rw [hpull]
    exact hrest
  · rw [hpull]
    exact hrest

/-! ## All pulls -/

/-- Whether an answer reports a tile. -/
def reportsTile : Except OperatorError Bool → Bool
  | .ok ready => ready
  | .error _ => false

theorem reportsTile_iff {a : Except OperatorError Bool} : reportsTile a = true ↔ a = .ok true := by
  match a with
  | .ok true | .ok false | .error e => simp [reportsTile]

@[simp] theorem reportsTile_elim (e : Option OperatorError) :
    reportsTile (e.elim (.ok false) .error) = false := by
  cases e <;> rfl

/-- The tile that the next pull finds, if it finds one. -/
def next? (o : Operator) : Option Tile := if reportsTile o.pull.1 then o.pull.2.ready else none

/-- The tiles that the pulls among some calls find, in order. -/
def found (o : Operator) : List Call → List Tile
  | [] => []
  | .pull :: calls => o.next?.toList ++ o.pull.2.found calls
  | .take :: calls => o.take.2.found calls

/-- What is ready after a pull: the tile that it found, or else what was kept. -/
theorem ready_pull (h : o.ahead.Plain) :
    (∃ t, o.pull.1 = .ok true ∧ o.next? = some t ∧ o.pull.2.ready = some t) ∨
      (o.pull.1 ≠ .ok true ∧ o.next? = none ∧ o.pull.2.ready = o.kept) := by
  rw [next?]
  rcases pull_cases h with ⟨e, s, -, hpull⟩ | ⟨e, s, rest, -, -, hpull⟩ | ⟨t, s, rest, -, -, hpull⟩
  · rw [hpull]
    exact .inr ⟨by cases e <;> simp, by simp, rfl⟩
  · rw [hpull]
    exact .inr ⟨by simp, by simp [reportsTile], rfl⟩
  · rw [hpull]
    exact .inl ⟨t, rfl, by simp [reportsTile], rfl⟩

/-- Every answer that reports a tile stands for one tile that was found. -/
theorem length_found (h : o.ahead.Plain) (calls : List Call) :
    (o.found calls).length = (o.answers calls).countP reportsTile := by
  induction calls generalizing o with
  | nil => rfl
  | cons call calls ih =>
      cases call with
      | take => exact ih h
      | pull =>
          rw [found, answers, List.length_append, ih (plain_pull h), List.countP_cons, Nat.add_comm]
          rcases ready_pull h with ⟨t, hanswer, hnext, -⟩ | ⟨hanswer, hnext, -⟩
          · rw [hnext, if_pos (reportsTile_iff.2 hanswer)]
            rfl
          · rw [hnext, if_neg (mt reportsTile_iff.1 hanswer)]
            rfl

/-- Tiles are found among the answers ahead. -/
theorem exists_mem_ahead_of_mem_found (h : o.ahead.Plain) {calls : List Call} {t : Tile}
    (ht : t ∈ o.found calls) : ∃ s, (.tile t, s) ∈ o.ahead.toList := by
  induction calls generalizing o with
  | nil => cases ht
  | cons call calls ih =>
      cases call with
      | take => exact ih (o := o.take.2) h ht
      | pull =>
          rw [found, List.mem_append, Option.mem_toList] at ht
          rcases pull_cases h with ⟨e, s, hahead, hpull⟩ | ⟨e, s, rest, hahead, hrest, hpull⟩ |
            ⟨t', s, rest, hahead, hrest, hpull⟩
          · rw [next?, hpull, reportsTile_elim] at ht
            rcases ht with ht | ht
            · cases ht
            · exact ih (o := { o with ready := o.kept, stats := s }) h ht
          · rw [next?, hpull] at ht
            rcases ht with ht | ht
            · cases ht
            · obtain ⟨s', hs'⟩ := ih hrest ht
              rw [hahead]
              exact ⟨s', List.mem_cons_of_mem _ hs'⟩
          · rw [next?, hpull] at ht
            rw [hahead]
            rcases ht with ht | ht
            · cases ht
              exact ⟨s, List.mem_cons_self⟩
            · obtain ⟨s', hs'⟩ := ih hrest ht
              exact ⟨s', List.mem_cons_of_mem _ hs'⟩

/-! ## Draining -/

theorem pull_ahead (o : Operator) : o.pull.2.ahead = o.ahead.next.2 := by
  rw [pull_eq_next]
  split <;> simp only [*]

/-- Draining is a loop: pull, stop if there is no tile, and otherwise take it and go on. -/
theorem drain_eq (o : Operator) :
    o.drain = match o.pull.1 with
      | .error e => (.error (.operator e), o.pull.2)
      | .ok false => (.ok [], o.pull.2)
      | .ok true =>
        match o.pull.2.ready with
        | none => (.error (.withheld o.pull.2.name), o.pull.2.take.2)
        | some t => (o.pull.2.take.2.drain.1.map (t :: ·), o.pull.2.take.2.drain.2) := by
  rw [drain]
  cases hahead : o.ahead with
  | stop e => obtain ⟨_ | e, s⟩ := e <;> rw [drainAlong, pull, hahead]
  | step a rest =>
      have hrest : o.pull.2.ahead = rest := by rw [pull_ahead, hahead, Trace.next]
      rw [drainAlong, ← hrest]
      generalize o.pull = pulled
      obtain ⟨answer, o'⟩ := pulled
      rcases answer with e | _ | _
      · rfl
      · rfl
      · simp only [take, drain]
        cases o'.ready with
        | none => rfl
        | some t =>
            dsimp only
            generalize drainAlong o'.ahead _ = result
            obtain ⟨e | ts, o''⟩ := result <;> rfl

/-- Each tile that is found uses up an answer, so that the loop ends. -/
theorem length_ahead_lt_of_reportsTile (h : reportsTile o.pull.1 = true) :
    o.pull.2.ahead.length < o.ahead.length := by
  rw [pull_ahead]
  match hahead : o.ahead with
  | .step a rest => exact Nat.lt_succ_self _
  | .stop (none, s) | .stop (some e, s) =>
      rw [pull, hahead] at h
      cases h

/-- Draining makes calls like any other caller, and its result are the tiles that they find. -/
theorem drain_eq_after (o : Operator) :
    ∃ calls, o.drain.2 = o.after calls ∧ ∀ ts, o.drain.1 = .ok ts → o.found calls = ts := by
  induction hlength : o.ahead.length using Nat.strongRecOn generalizing o with
  | ind n ih =>
      rw [drain_eq]
      match hanswer : o.pull.1 with
      | .error e => exact ⟨[.pull], rfl, fun ts h => by cases h⟩
      | .ok false =>
          refine ⟨[.pull], rfl, fun ts h => ?_⟩
          cases h
          rw [found, found, next?, hanswer]
          rfl
      | .ok true =>
          have hlt := length_ahead_lt_of_reportsTile (reportsTile_iff.2 hanswer)
          obtain ⟨calls, hafter, hfound⟩ := ih _ (hlength ▸ hlt) o.pull.2.take.2 rfl
          match hready : o.pull.2.ready with
          | none => exact ⟨[.pull, .take], rfl, fun ts h => by cases h⟩
          | some t =>
              refine ⟨.pull :: .take :: calls, hafter, fun ts h => ?_⟩
              match hdrain : o.pull.2.take.2.drain.1 with
              | .error e =>
                  rw [hdrain] at h
                  cases h
              | .ok ts' =>
                  rw [hdrain] at h
                  cases h
                  rw [found, found, next?, hanswer, hready, hfound ts' hdrain]
                  rfl

end Operator

/-! ## Joins of scans -/

/-- The trace of a join of scans has no tiles but the outputs of pairs at equal places. -/
theorem Join.mem_outcomes_of_mem_trace {j : Join} {ls rs : List Tile} {s s' : Stats} {t : Tile}
    (ht : (.tile t, s') ∈ (j.trace (scanFeed rs) (scanFeed ls) s).toList) :
    .ok (some t) ∈ j.outcomes ls rs := by
  induction rs generalizing ls s with
  | nil =>
      rw [trace_right_nil] at ht
      cases ht
  | cons r rs ih =>
      cases ls with
      | nil =>
          rw [trace_left_nil] at ht
          cases ht
      | cons l ls =>
          rw [outcomes, List.zipWith_cons_cons]
          obtain ⟨s'', htrace⟩ := trace_cons (j := j) (s := s) l r ls rs
          rw [htrace] at ht
          rcases hout : j.outcome l r with e | _ | t'
          · rw [hout, traceWith, Trail.toList] at ht
            rcases List.mem_cons.1 ht with ht | ht
            · cases ht
            · exact List.mem_cons_of_mem _ (ih ht)
          · rw [hout] at ht
            exact List.mem_cons_of_mem _ (ih ht)
          · rw [hout, traceWith, Trail.toList] at ht
            rcases List.mem_cons.1 ht with ht | ht
            · cases ht
              exact List.mem_cons_self
            · exact List.mem_cons_of_mem _ (ih ht)

/-- Whatever calls are made on a join of scans, the tiles found are outputs of pairs at equal
    places. -/
theorem mem_outcomes_of_mem_found {j : Join} {ls rs : List Tile} {calls : List Call} {t : Tile}
    (ht : t ∈ (Operator.ofSource (.join j (.scan ls) (.scan rs))).found calls) :
    .ok (some t) ∈ j.outcomes ls rs := by
  have hplain : (Operator.ofSource (.join j (.scan ls) (.scan rs))).ahead.Plain :=
    j.trace_plain _ _ _
  obtain ⟨s, hs⟩ := Operator.exists_mem_ahead_of_mem_found hplain ht
  exact Join.mem_outcomes_of_mem_trace hs

namespace Example

def once : Source := .scan [single]

def twice : Source := .scan [single, single]

/-- The join of one tile with two has the output of the first pair, and then the left input ends. -/
theorem drain_once_twice : ∃ t,
    (Operator.ofSource (.join checked once twice)).drain.1 = .ok [t] ∧ t.rowCount = 1 := by
  obtain ⟨t, htile, hrows⟩ := outcome_single
  have houtcomes : checked.outcomes [single] [single, single] = [.ok (some t)] :=
    congrArg (· :: []) htile
  have hjoins : (Operator.ofSource (.join checked once twice)).Joins checked [single]
    [single, single] := ⟨{}, rfl⟩
  rw [Operator.drain_of_all_ok hjoins (by simp [houtcomes]), houtcomes]
  exact ⟨t, rfl, hrows⟩

end Example

end SortMerge

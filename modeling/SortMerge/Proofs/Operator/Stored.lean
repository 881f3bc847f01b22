import SortMerge.Proofs.Operator.Executor

set_option autoImplicit false

/-! # Storing the output of an operator

The output of an operator that can be drained may be stored and scanned in its place. For a scan or
a join of any depth, draining goes through exactly if all answers are tiles and the end is a quiet
one, which is how a scan of these tiles answers. A join learns nothing else about what is below it:
how many pairs an executor there goes through in one pull, what is left in its slot and how often it
is pulled after its end all remain hidden. So no sequence of calls tells it with the operator from
it with the scan. -/

namespace SortMerge

/-- No sequence of calls tells the two sources apart, neither as operators nor as executors. -/
def Source.SameCalls (a b : Source) : Prop :=
  ∀ calls, (Operator.ofSource a).log calls = (Operator.ofSource b).log calls ∧
    a.executor.log a.start calls = b.executor.log b.start calls

/-- It is enough to compare the operators, since executors agree with them. -/
theorem Source.sameCalls_of_ofSource {a b : Source}
    (h : Operator.ofSource a = Operator.ofSource b) : a.SameCalls b := by
  intro calls
  rw [a.executor_agrees.1, b.executor_agrees.1, h]
  exact ⟨rfl, rfl⟩

namespace Operator

variable {o : Operator} {tiles : List Tile}

/-- What an operator has ahead that nobody has pulled yet are the answers of its source. -/
theorem feed_ofSource (src : Source) : (ofSource src).ahead.feed = src.feed := by
  have hleaf (f : Feed) : (leafTrace f).feed = f := by
    induction f with
    | stop e => rfl
    | step a rest ih => exact congrArg (Trail.step a) ih
  match src with
  | .scan tiles => exact hleaf _
  | .script answers => exact hleaf _
  | .join j left right => rfl

theorem map_cons_eq_ok_iff {result : Except RunError (List Tile)} {t : Tile} :
    result.map (t :: ·) = .ok tiles ↔ ∃ rest, result = .ok rest ∧ tiles = t :: rest := by
  match result with
  | .error e => simp [Except.map]
  | .ok rest => simp [Except.map, eq_comm]

/-- Draining hands back some tiles exactly if these tiles and a quiet end are all that is ahead. -/
theorem drain_eq_ok_iff (h : o.ahead.Plain) :
    o.drain.1 = .ok tiles ↔ o.ahead.feed = (Source.scan tiles).feed := by
  induction hlength : o.ahead.length using Nat.strongRecOn generalizing o tiles with
  | ind n ih =>
      rw [drain_eq]
      rcases pull_cases h with ⟨e, s, hahead, hpull⟩ | ⟨e, s, rest, hahead, -, hpull⟩ |
        ⟨t, s, rest, hahead, hrest, hpull⟩
      · rw [hpull, hahead]
        cases e <;> cases tiles <;> simp [Trace.feed, Trail.map, Source.feed, Trail.ofList]
      · rw [hpull, hahead]
        cases tiles <;> simp [Trace.feed, Trail.map, Source.feed, Trail.ofList]
      · have hlt : rest.length < n := by rw [← hlength, hahead]; exact Nat.lt_succ_self _
        have hrec (us : List Tile) :
            (drain { o with ahead := rest, ready := none, stats := s }).1 = .ok us ↔
              rest.feed = (Source.scan us).feed :=
          ih rest.length hlt hrest rfl
        rw [hpull, hahead]
        refine map_cons_eq_ok_iff.trans ⟨?_, fun hfeed => ?_⟩
        · rintro ⟨us, hdrain, rfl⟩
          exact congrArg (Trail.step (.tile t)) ((hrec us).1 hdrain)
        · cases tiles with
          | nil => cases hfeed
          | cons u us =>
              obtain ⟨htile, hus⟩ := Trail.step.inj hfeed
              cases htile
              exact ⟨us, (hrec us).2 hus, rfl⟩

end Operator

/-- An operator below a join, on either side, may be replaced by a scan of the tiles that draining it
    gives: no sequence of calls of the join tells the one from the other. The answers are the same,
    and so are the tiles taken and the statistics. -/
theorem log_join_stored {src : Source} (hsrc : ∀ answers, src ≠ .script answers)
    {tiles : List Tile} (hdrain : (Operator.ofSource src).drain.1 = .ok tiles) (j : Join)
    (other : Source) :
    (Source.join j src other).SameCalls (.join j (.scan tiles) other) ∧
      (Source.join j other src).SameCalls (.join j other (.scan tiles)) := by
  have hfeed : src.feed = (Source.scan tiles).feed := by
    rw [← Operator.feed_ofSource]
    exact (Operator.drain_eq_ok_iff (Operator.plain_ofSource hsrc)).1 hdrain
  refine ⟨Source.sameCalls_of_ofSource ?_, Source.sameCalls_of_ofSource ?_⟩
  · rw [Operator.ofSource, Operator.ofSource, hfeed]
  · rw [Operator.ofSource, Operator.ofSource, hfeed]

/-- The join of one tile with two, and its output as a scan, each joined with one more tile. -/
theorem log_join_stored_once_twice : ∃ t,
    (Operator.ofSource (.join Example.checked Example.once Example.twice)).drain.1 = .ok [t] ∧
      (Source.join Example.checked (.join Example.checked Example.once Example.twice)
          Example.twice).SameCalls (.join Example.checked (.scan [t]) Example.twice) := by
  obtain ⟨t, hdrain, -⟩ := Example.drain_once_twice
  have hsame := log_join_stored (fun answers => by simp) hdrain Example.checked Example.twice
  exact ⟨t, hdrain, hsame.1⟩

end SortMerge

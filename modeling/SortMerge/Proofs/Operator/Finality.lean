import SortMerge.Proofs.Join.NestedLoop
import SortMerge.Proofs.Operator.Calls

set_option autoImplicit false

/-! # When a join stops for good

An operator is expected to be done once a pull has found no tile or has failed. A join keeps to the
first half whatever its inputs do, even if they have more to give afterwards. It does not keep to
the second half: a failed round is forgotten, and the next pull goes on with what the inputs have
left. So failures are final exactly if no round after a failed one gives rows. -/

namespace SortMerge

/-- A pull that finds no tile, or fails, is the last one that could have found any. -/
def Operator.StopsForGood (o : Operator) : Prop :=
  ∀ calls, (o.answers calls).Pairwise fun a b => a ≠ .ok true → b ≠ .ok true

namespace Join

/-- Some round from here on gives rows. -/
def GivesRows (j : Join) (i : Inputs) : Prop :=
  ∃ i' t rest, j.Leads i i' ∧ j.round i' = .went (.ok (some t)) rest

/-- No round after a failed one gives rows. -/
def FailsForGood (j : Join) (i : Inputs) : Prop :=
  ∀ i' e rest, j.Leads i i' → j.round i' = .went (.error e) rest → ¬ j.GivesRows rest

variable {j : Join} {i i' : Inputs} {e : Option OperatorError}

/-- No round comes after the last one. -/
theorem Leads.eq_of_over (h : j.Leads i i') (hround : j.round i = .over e) : i' = i := by
  rcases h.cases_head with heq | ⟨i₁, ⟨out, hnext⟩, -⟩
  · exact heq.symm
  · rw [hround] at hnext
    cases hnext

theorem not_givesRows_of_over (hround : j.round i = .over e) : ¬ j.GivesRows i := by
  rintro ⟨i', t, rest, hleads, hrows⟩
  rw [hleads.eq_of_over hround, hround] at hrows
  cases hrows

end Join

namespace Operator

/-- The operator joins what the inputs have left after some rounds. -/
def Follows (o : Operator) (j : Join) (i : Inputs) : Prop := ∃ i', j.Leads i i' ∧ o.IsJoinOf j i'

variable {o : Operator} {j : Join} {i : Inputs}

theorem Follows.take (h : o.Follows j i) : o.take.2.Follows j i := h

theorem Follows.pull (h : o.Follows j i) : o.pull.2.Follows j i := by
  obtain ⟨i', hleads, hjoin⟩ := h
  obtain ⟨i'', hleads', hcases⟩ := hjoin.pull_cases
  have hreach : j.Leads i i'' := hleads.trans hleads'
  rcases hcases with ⟨e, -, -, hafter⟩ | ⟨e, rest, hround, -, hafter⟩ | ⟨t, rest, hround, -, hafter⟩
  · exact ⟨i'', hreach, hafter⟩
  · exact ⟨rest, hreach.tail ⟨_, hround⟩, hafter⟩
  · exact ⟨rest, hreach.tail ⟨_, hround⟩, hafter⟩

/-! ## Answers from some point on -/

/-- A join that is over gives one answer for ever. -/
theorem IsJoinOf.answers_of_over (h : o.IsJoinOf j i) {e : Option OperatorError}
    (hround : j.round i = .over e) (calls : List Call) :
    ∀ a ∈ o.answers calls, a = e.elim (.ok false) .error :=
  forall_answers (I := fun o => o.IsJoinOf j i) (fun _ ho => ho.take)
    (fun _ ho => ho.pull_over hround) h calls

/-- If no round gives rows, no pull finds a tile. -/
theorem IsJoinOf.answers_ne_true (h : o.IsJoinOf j i) (hrows : ¬ j.GivesRows i)
    (calls : List Call) : ∀ a ∈ o.answers calls, a ≠ .ok true := by
  refine forall_answers (I := fun o => o.Follows j i) (fun _ ho => ho.take) (fun o ho => ?_)
    ⟨i, .refl, h⟩ calls
  refine ⟨?_, ho.pull⟩
  obtain ⟨i', hleads, hjoin⟩ := ho
  obtain ⟨i'', hleads', hcases⟩ := hjoin.pull_cases
  rcases hcases with ⟨e, -, hanswer, -⟩ | ⟨e, rest, -, hanswer, -⟩ | ⟨t, rest, hround, -, -⟩
  · rw [hanswer]
    cases e <;> simp
  · rw [hanswer]
    simp
  · exact absurd ⟨i'', t, rest, hleads.trans hleads', hround⟩ hrows

/-! ## Both halves -/

/-- The end of a join is final, whatever its inputs have left. -/
theorem IsJoinOf.answers_after_end (h : o.IsJoinOf j i) (calls : List Call) :
    (o.answers calls).Pairwise fun a b => a = .ok false → b = .ok false := by
  refine answers_pairwise (I := fun o => o.Follows j i) (fun _ ho => ho.take) (fun _ ho => ho.pull)
    (fun o ho later b hb hend => ?_) ⟨i, .refl, h⟩ calls
  obtain ⟨i', -, hjoin⟩ := ho
  obtain ⟨i'', -, hcases⟩ := hjoin.pull_cases
  rcases hcases with ⟨e, hround, hanswer, hafter⟩ | ⟨e, rest, -, hanswer, -⟩ |
    ⟨t, rest, -, hanswer, -⟩
  · rw [hafter.answers_of_over hround later b hb, ← hanswer, hend]
  · rw [hanswer] at hend
    cases hend
  · rw [hanswer] at hend
    cases hend

theorem IsJoinOf.stopsForGood (h : o.IsJoinOf j i) (hfinal : j.FailsForGood i) :
    o.StopsForGood := by
  intro calls
  refine answers_pairwise (I := fun o => o.Follows j i) (fun _ ho => ho.take) (fun _ ho => ho.pull)
    (fun o ho later b hb hstop => ?_) ⟨i, .refl, h⟩ calls
  obtain ⟨i', hleads, hjoin⟩ := ho
  obtain ⟨i'', hleads', hcases⟩ := hjoin.pull_cases
  rcases hcases with ⟨e, hround, hanswer, hafter⟩ | ⟨e, rest, hround, -, hafter⟩ |
    ⟨t, rest, -, hanswer, -⟩
  · rw [hafter.answers_of_over hround later b hb, ← hanswer]
    exact hstop
  · exact hafter.answers_ne_true (hfinal i'' e rest (hleads.trans hleads') hround) later b hb
  · exact absurd hanswer hstop

/-- A failed round and a later one with rows show up as answers of two pulls. -/
theorem IsJoinOf.failsForGood (h : o.IsJoinOf j i) (hstop : o.StopsForGood) :
    j.FailsForGood i := by
  rintro i' e rest hleads hfailed ⟨i'', t, rest', hleads', hrows⟩
  obtain ⟨first, hfirst⟩ := h.exists_after hleads
  obtain ⟨herror, hrest⟩ := hfirst.pull_error hfailed
  obtain ⟨second, hsecond⟩ := hrest.exists_after hleads'
  obtain ⟨htile, -⟩ := hsecond.pull_tile hrows
  have hpairs := hstop (first ++ .pull :: (second ++ [.pull]))
  rw [answers_append, answers, answers_append, answers, herror, htile] at hpairs
  obtain ⟨-, hlater, -⟩ := List.pairwise_append.1 hpairs
  obtain ⟨hafter, -⟩ := List.pairwise_cons.1 hlater
  exact hafter (.ok true) (by simp) (by simp) rfl

end Operator

/-- The end of a join is final: once a pull has found no tile without failing, every later one finds
    none without failing. Failures are final exactly if no round after a failed one gives rows. -/
theorem stopsForGood_iff {o : Operator} {j : Join} {i : Inputs} (h : o.IsJoinOf j i) :
    (∀ calls, (o.answers calls).Pairwise fun a b => a = .ok false → b = .ok false) ∧
      (o.StopsForGood ↔ j.FailsForGood i) :=
  ⟨h.answers_after_end, h.failsForGood, h.stopsForGood⟩

namespace Example

/-- A join on first columns that looks out for inputs that are not sorted. -/
def checked : Join :=
  { plan := { clauses := [.onColumns 0 0] }, config := { verifySortedInputs := true } }

def descending : Tile := tile [[.int64 2, .int64 1]] 2

def single : Tile := tile [[.int64 1]] 1

/-- A source that cannot be read once, and then has nothing more. -/
def unreadable : Source := .script [.failed (.failed "storage read failed")]

/-- A join of sources of which the left one is not sorted at first. -/
def disordered : Source :=
  .join checked (.scan [descending, single]) (.scan [single, single])

end Example

/-- The pair of two single rows with the same key has an output of one row. -/
theorem Example.outcome_single : ∃ t,
    Example.checked.outcome Example.single Example.single = .ok (some t) ∧ t.rowCount = 1 := by
  have hsorted : SortedInputs Example.checked.plan Example.single Example.single := by decide
  have hending : (Example.checked.plan.merge Example.checked.params Example.single
      Example.single).ending = none := hsorted.ending_eq_none_iff.2 (by decide)
  rw [Join.outcome, Join.joinPair_of_ending_none rfl hending, hsorted.emittedPairs_eq hending]
  exact ⟨_, rfl, rfl⟩

/-- After the failed read the right input ends, so that failure is final. -/
theorem stopsForGood_iff_unreadable :
    (Operator.ofSource (.join Example.checked (.scan [Example.single])
        Example.unreadable)).IsJoinOf Example.checked
          ⟨Example.unreadable.feed, (Source.scan [Example.single]).feed⟩ ∧
      Example.checked.FailsForGood
          ⟨Example.unreadable.feed, (Source.scan [Example.single]).feed⟩ ∧
      (Operator.ofSource (.join Example.checked (.scan [Example.single])
        Example.unreadable)).StopsForGood := by
  have hjoin := Operator.isJoinOf_ofSource Example.checked (.scan [Example.single])
    Example.unreadable
  have hfinal : Example.checked.FailsForGood
      ⟨Example.unreadable.feed, (Source.scan [Example.single]).feed⟩ := by
    have hround : Example.checked.round
        ⟨Example.unreadable.feed, (Source.scan [Example.single]).feed⟩
          = .went (.error (.failed "storage read failed"))
            ⟨.stop none, (Source.scan [Example.single]).feed⟩ := rfl
    have hover : Example.checked.round ⟨.stop none, (Source.scan [Example.single]).feed⟩
        = .over (some .rightExhausted) := rfl
    intro i e rest hleads hfailed
    rcases hleads.cases_head with rfl | ⟨i₁, ⟨out, hnext⟩, hlater⟩
    · rw [hround] at hfailed
      cases hfailed
      exact Join.not_givesRows_of_over hover
    · rw [hround] at hnext
      cases hnext
      rw [Join.Leads.eq_of_over hlater hover, hover] at hfailed
      cases hfailed
  exact ⟨hjoin, hfinal, (stopsForGood_iff hjoin).2.2 hfinal⟩

/-- A pair that fails the check is forgotten, and the next pull finds the tile of the next pair. -/
theorem not_stopsForGood_disordered :
    (Operator.ofSource Example.disordered).answers [.pull, .pull]
        = [.error (.unsorted .left 1), .ok true] ∧
      ¬ (Operator.ofSource Example.disordered).StopsForGood := by
  have hanswers : (Operator.ofSource Example.disordered).answers [.pull, .pull]
      = [.error (.unsorted .left 1), .ok true] := by
    obtain ⟨t, htile, -⟩ := Example.outcome_single
    have hjoin := Operator.isJoinOf_ofSource Example.checked
      (.scan [Example.descending, Example.single]) (.scan [Example.single, Example.single])
    have hfailed : Example.checked.round ⟨(Source.scan [Example.single, Example.single]).feed,
        (Source.scan [Example.descending, Example.single]).feed⟩
          = .went (.error (.unsorted .left 1))
            ⟨(Source.scan [Example.single]).feed, (Source.scan [Example.single]).feed⟩ := rfl
    have hrows : Example.checked.round
        ⟨(Source.scan [Example.single]).feed, (Source.scan [Example.single]).feed⟩
          = .went (.ok (some t)) ⟨.stop none, .stop none⟩ :=
      congrArg (Round.went · ⟨.stop none, .stop none⟩) htile
    obtain ⟨herror, hrest⟩ := hjoin.pull_error hfailed
    obtain ⟨hfound, -⟩ := hrest.pull_tile hrows
    rw [Operator.answers, Operator.answers, Operator.answers, Example.disordered, herror, hfound]
  refine ⟨hanswers, fun hstop => ?_⟩
  have hpairs := hstop [.pull, .pull]
  rw [hanswers] at hpairs
  simp at hpairs

end SortMerge

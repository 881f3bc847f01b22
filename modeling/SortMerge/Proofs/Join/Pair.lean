import SortMerge.Join.Pair
import SortMerge.Proofs.Join.Output
import SortMerge.Proofs.Join.Unsorted

set_option autoImplicit false

/-! # Joining one pair

A pair is joined in three stages: the checks, the merge, and finishing the output. Each stage that
fails settles the result. The statistics so far are added to but never looked at, so what a pair
gives is its `outcome`, whatever was joined before. -/

/-! ## Outcomes -/

namespace SortMerge.Join

/-- What joining a pair of tiles alone gives: an error, no rows, or a tile. -/
def outcome (j : Join) (left right : Tile) : Except OperatorError (Option Tile) :=
  (j.joinPair left right {}).2

variable {j : Join} {left right : Tile} {s : Stats}

theorem joinPair_of_checkPair_error {e : OperatorError} (h : j.checkPair left right = .error e) :
    j.joinPair left right s = (s, .error e) := by
  rw [joinPair, h]

theorem joinPair_of_ending_some {e : ExprError} (h : j.checkPair left right = .ok ())
    (hending : (j.plan.merge j.params left right).ending = some e) :
    j.joinPair left right s = (s, .error (.expression e)) := by
  rw [joinPair, h]
  simp only [hending]

/-- A merge that goes through is counted, and its output is finished. -/
theorem joinPair_of_ending_none (h : j.checkPair left right = .ok ())
    (hending : (j.plan.merge j.params left right).ending = none) :
    j.joinPair left right s =
      (s.addPass (.ofMatches (j.plan.merge j.params left right).toList),
        ((Output.empty left right).append (emittedPairs
          (j.plan.merge j.params left right).toList)).finish.mapError .integrity) := by
  rw [joinPair, h]
  simp only [hending]
  cases Output.finish _ <;> rfl

theorem sound_of_checkInput {side : Side} {t : Tile} (h : checkInput side t = .ok ()) :
    t.Sound := by
  rw [checkInput] at h
  split at h
  · cases h
  · split at h
    · cases h
    · next hcheck => exact (Tile.check_eq_ok_iff t).1 hcheck

/-- Tiles that pass the checks are sound, whatever the settings ask for. -/
theorem sound_of_checkPair (h : j.checkPair left right = .ok ()) : left.Sound ∧ right.Sound := by
  rw [checkPair] at h
  split at h
  · cases h
  · next hleft =>
      split at h
      · cases h
      · next hright => exact ⟨sound_of_checkInput hleft, sound_of_checkInput hright⟩

/-- A pair whose merge goes through gives no rows if no pairs of rows were emitted, and otherwise a
    sound tile that shows them. -/
theorem outcome_of_ending_none (h : j.checkPair left right = .ok ())
    (hending : (j.plan.merge j.params left right).ending = none) :
    (emittedPairs (j.plan.merge j.params left right).toList = [] ∧
        j.outcome left right = .ok none) ∨
      (emittedPairs (j.plan.merge j.params left right).toList ≠ [] ∧
        ∃ t, j.outcome left right = .ok (some t) ∧ t.Sound ∧
          t.ShowsPairs left right (emittedPairs (j.plan.merge j.params left right).toList)) := by
  obtain ⟨hleft, hright⟩ := sound_of_checkPair h
  have hjoin := congrArg Prod.snd (joinPair_of_ending_none (s := {}) h hending)
  rcases Output.finish_append_cases hleft hright fun q hq =>
    mem_rowPairs.1 (mem_rowPairs_of_mem_emittedPairs (p := j.plan) hq) with
    ⟨hnil, hfinish⟩ | ⟨hne, t, hfinish, hsound, hshows⟩
  · rw [hfinish] at hjoin
    exact .inl ⟨hnil, hjoin⟩
  · rw [hfinish] at hjoin
    exact .inr ⟨hne, t, hjoin, hsound, hshows⟩

/-- Every way in which joining a pair can go. -/
theorem joinPair_cases (j : Join) (left right : Tile) (s : Stats) :
    (∃ e, j.checkPair left right = .error e ∧ j.joinPair left right s = (s, .error e)) ∨
      (∃ e, j.checkPair left right = .ok () ∧
        (j.plan.merge j.params left right).ending = some e ∧
        j.joinPair left right s = (s, .error (.expression e))) ∨
      (j.checkPair left right = .ok () ∧ (j.plan.merge j.params left right).ending = none ∧
        j.joinPair left right s =
          (s.addPass (.ofMatches (j.plan.merge j.params left right).toList),
            ((Output.empty left right).append (emittedPairs
              (j.plan.merge j.params left right).toList)).finish.mapError .integrity)) := by
  cases hcheck : j.checkPair left right with
  | error e => exact .inl ⟨e, rfl, joinPair_of_checkPair_error hcheck⟩
  | ok u =>
      cases hending : (j.plan.merge j.params left right).ending with
      | some e => exact .inr (.inl ⟨e, rfl, rfl, joinPair_of_ending_some hcheck hending⟩)
      | none => exact .inr (.inr ⟨rfl, rfl, joinPair_of_ending_none hcheck hending⟩)

/-- The statistics so far have no influence on the outcome of a pair. -/
theorem joinPair_snd (j : Join) (left right : Tile) (s : Stats) :
    (j.joinPair left right s).2 = j.outcome left right := by
  rw [outcome]
  rcases j.joinPair_cases left right s with ⟨e, hcheck, hjoin⟩ | ⟨e, hcheck, hending, hjoin⟩ |
    ⟨hcheck, hending, hjoin⟩
  · rw [hjoin, joinPair_of_checkPair_error hcheck]
  · rw [hjoin, joinPair_of_ending_some hcheck hending]
  · rw [hjoin, joinPair_of_ending_none hcheck hending]

end SortMerge.Join

/-! ## Verifying that inputs are sorted

The check compares neighbours only. Where all keys can be computed the comparison is a total
preorder, so a tile without a descent between neighbours has no inversion at all, and the check
fails exactly on tiles that have one. Since merging compares keys across tiles in the same order, a
pair that passes the check is merged into its nested-loop join. -/

namespace SortMerge

/-- Some row has a greater key than a later one. -/
def HasInversion (clauses : List Clause) (side : Side) (t : Tile) : Prop :=
  ∃ i k, i < k ∧ k < t.rowCount ∧ keyOrder clauses side (t.row i) (t.row k) = .ok .gt

/-- The row above has a greater key, and there is no such row before. -/
structure IsFirstDescent (clauses : List Clause) (side : Side) (t : Tile) (row : Nat) : Prop where
  pos : 0 < row
  lt_rowCount : row < t.rowCount
  descends : keyOrder clauses side (t.row (row - 1)) (t.row row) = .ok .gt
  first : ∀ i < row, 0 < i → keyOrder clauses side (t.row (i - 1)) (t.row i) ≠ .ok .gt

/-! ### The check -/

section Check

variable {clauses : List Clause} {side : Side} {t : Tile}

theorem IsFirstDescent.unique {row row' : Nat} (h : IsFirstDescent clauses side t row)
    (h' : IsFirstDescent clauses side t row') : row = row' := by
  rcases Nat.lt_trichotomy row row' with hlt | heq | hlt
  · exact absurd h.descends (h'.first row hlt h.pos)
  · exact heq
  · exact absurd h'.descends (h.first row' hlt h'.pos)

/-- The check goes through rows without a descent and stops at the first one. -/
theorem checkSortedFrom_spec (h : HasKeys clauses side t) {remaining row : Nat} (hrow : 0 < row)
    (hle : remaining ≤ t.rowCount - row) :
    (Join.checkSortedFrom clauses side t remaining row = .ok () ∧
        ∀ i, row ≤ i → i < row + remaining →
          keyOrder clauses side (t.row (i - 1)) (t.row i) ≠ .ok .gt) ∨
      ∃ k, Join.checkSortedFrom clauses side t remaining row = .error (.unsorted side k) ∧
        row ≤ k ∧ k < row + remaining ∧
        keyOrder clauses side (t.row (k - 1)) (t.row k) = .ok .gt ∧
        ∀ i, row ≤ i → i < k → keyOrder clauses side (t.row (i - 1)) (t.row i) ≠ .ok .gt := by
  fun_induction Join.checkSortedFrom clauses side t remaining row with
  | case1 row => exact .inl ⟨rfl, fun i hi hlt => by omega⟩
  | case2 remaining row e he =>
      rw [h.keyOrder_eq (by omega) (by omega)] at he
      cases he
  | case3 remaining row hgt =>
      exact .inr ⟨row, rfl, Nat.le_refl _, by omega, hgt, fun i hi hlt => by omega⟩
  | case4 remaining row o hne ho ih =>
      have hhere : keyOrder clauses side (t.row (row - 1)) (t.row row) ≠ .ok .gt := by
        intro hgt
        exact hne (Except.ok.inj (ho.symm.trans hgt))
      rcases ih (by omega) (by omega) with ⟨hok, hall⟩ | ⟨k, herror, hle, hlt, hgt, hfirst⟩
      · refine .inl ⟨hok, fun i hi hlt => ?_⟩
        rcases Nat.eq_or_lt_of_le hi with rfl | hi
        · exact hhere
        · exact hall i hi (by omega)
      -- this row is no descent, so the first one after it is the first from it on
      · refine .inr ⟨k, herror, by omega, by omega, hgt, fun i hi hlt => ?_⟩
        rcases Nat.eq_or_lt_of_le hi with rfl | hi
        · exact hhere
        · exact hfirst i hi hlt

/-- Without a descent between neighbours there is no inversion. -/
theorem not_hasInversion_iff (h : HasKeys clauses side t) :
    ¬ HasInversion clauses side t ↔ SortedOn clauses side t := by
  constructor
  -- a descent is an inversion of neighbours; the converse takes transitivity along the rows
  · intro hnone i hi hgt
    exact hnone ⟨i, i + 1, Nat.lt_succ_self i, hi, hgt⟩
  · rintro hsorted ⟨i, k, hik, hk, hgt⟩
    have hle := hsorted.keyAt_isLE h (Nat.le_of_lt hik) hk
    rw [h.keyOrder_eq (by omega) hk, Except.ok.injEq] at hgt
    rw [hgt] at hle
    cases hle

theorem checkSorted_eq_ok (h : HasKeys clauses side t) (hnone : ¬ HasInversion clauses side t) :
    Join.checkSorted clauses side t = .ok () := by
  rcases checkSortedFrom_spec h Nat.one_pos (Nat.le_refl _) with ⟨hok, _⟩ | ⟨k, _, hle, hlt, hgt, _⟩
  · exact hok
  · exact absurd ⟨k - 1, k, by omega, by omega, hgt⟩ hnone

theorem checkSorted_eq_error (h : HasKeys clauses side t) (hsome : HasInversion clauses side t) :
    ∃ row, IsFirstDescent clauses side t row ∧
      Join.checkSorted clauses side t = .error (.unsorted side row) := by
  rcases checkSortedFrom_spec h Nat.one_pos (Nat.le_refl _) with
    ⟨_, hall⟩ | ⟨k, herror, hle, hlt, hgt, hfirst⟩
  · refine absurd hsome ((not_hasInversion_iff h).2 fun i hi => ?_)
    exact hall (i + 1) (by omega) (by omega)
  · exact ⟨k, ⟨hle, by omega, hgt, fun i hlt hi => hfirst i hi hlt⟩, herror⟩

end Check

/-! ### Joining with and without the check -/

/-- What a join expects of a pair of tiles: a valid plan, sound tiles that have columns, and keys
    that can be computed on every row. -/
structure KeyedInputs (p : Plan) (left right : Tile) : Prop where
  valid : p.validate = .ok ()
  leftCheck : left.check = .ok ()
  rightCheck : right.check = .ok ()
  leftColumns : left.columns ≠ []
  rightColumns : right.columns ≠ []
  leftKeys : HasKeys p.clauses .left left
  rightKeys : HasKeys p.clauses .right right

theorem KeyedInputs.sorted {p : Plan} {left right : Tile} (h : KeyedInputs p left right)
    (hl : ¬ HasInversion p.clauses .left left) (hr : ¬ HasInversion p.clauses .right right) :
    SortedInputs p left right :=
  ⟨h.valid, h.leftKeys, h.rightKeys, (not_hasInversion_iff h.leftKeys).1 hl,
    (not_hasInversion_iff h.rightKeys).1 hr⟩

theorem checkInput_eq_ok (side : Side) {t : Tile} (h : t.check = .ok ())
    (hcolumns : t.columns ≠ []) : Join.checkInput side t = .ok () := by
  have hlists : t.lists ≠ [] := by
    obtain ⟨v, hv⟩ := List.exists_mem_of_ne_nil _ hcolumns
    obtain ⟨positions, hpositions, _⟩ := ((Tile.check_eq_ok_iff t).1 h).resolves v hv
    exact List.ne_nil_of_mem (List.mem_of_getElem? hpositions)
  rw [Join.checkInput, if_neg (by simp [hcolumns, hlists]), h]

namespace Join

/-- The same join without the check that inputs are sorted. -/
def unverified (j : Join) : Join :=
  { j with config := { j.config with verifySortedInputs := false } }

variable {j : Join} {left right : Tile} {s : Stats}

theorem checkPair_verified (h : KeyedInputs j.plan left right)
    (hverify : j.config.verifySortedInputs = true) :
    j.checkPair left right = (checkSorted j.plan.clauses .left left).bind
      fun _ => checkSorted j.plan.clauses .right right := by
  rw [checkPair, checkInput_eq_ok .left h.leftCheck h.leftColumns,
    checkInput_eq_ok .right h.rightCheck h.rightColumns]
  simp only [hverify, if_true]
  cases checkSorted j.plan.clauses .left left <;> rfl

theorem checkPair_unverified (h : KeyedInputs j.plan left right) :
    j.unverified.checkPair left right = .ok () := by
  rw [checkPair, checkInput_eq_ok .left h.leftCheck h.leftColumns,
    checkInput_eq_ok .right h.rightCheck h.rightColumns]
  rfl

theorem joinPair_of_left_inversion (h : KeyedInputs j.plan left right)
    (hverify : j.config.verifySortedInputs = true)
    (hleft : HasInversion j.plan.clauses .left left) :
    ∃ row, IsFirstDescent j.plan.clauses .left left row ∧
      j.joinPair left right s = (s, .error (.unsorted .left row)) := by
  obtain ⟨row, hfirst, herror⟩ := checkSorted_eq_error h.leftKeys hleft
  have hcheck := checkPair_verified h hverify
  rw [herror] at hcheck
  exact ⟨row, hfirst, joinPair_of_checkPair_error hcheck⟩

theorem joinPair_of_right_inversion (h : KeyedInputs j.plan left right)
    (hverify : j.config.verifySortedInputs = true)
    (hleft : ¬ HasInversion j.plan.clauses .left left)
    (hright : HasInversion j.plan.clauses .right right) :
    ∃ row, IsFirstDescent j.plan.clauses .right right row ∧
      j.joinPair left right s = (s, .error (.unsorted .right row)) := by
  obtain ⟨row, hfirst, herror⟩ := checkSorted_eq_error h.rightKeys hright
  have hcheck := checkPair_verified h hverify
  rw [checkSorted_eq_ok h.leftKeys hleft, herror] at hcheck
  exact ⟨row, hfirst, joinPair_of_checkPair_error hcheck⟩

theorem checkPair_eq_ok (h : KeyedInputs j.plan left right)
    (hverify : j.config.verifySortedInputs = true)
    (hleft : ¬ HasInversion j.plan.clauses .left left)
    (hright : ¬ HasInversion j.plan.clauses .right right) : j.checkPair left right = .ok () := by
  rw [checkPair_verified h hverify, checkSorted_eq_ok h.leftKeys hleft]
  exact checkSorted_eq_ok h.rightKeys hright

/-- Once the checks are passed they leave no trace in the result. -/
theorem joinPair_unverified (h : j.checkPair left right = .ok ())
    (h' : j.unverified.checkPair left right = .ok ()) :
    j.joinPair left right s = j.unverified.joinPair left right s := by
  rw [joinPair, joinPair, h, h']
  rfl

/-- Only the checks report tiles that are not sorted. -/
theorem joinPair_ne_unsorted (h : j.checkPair left right = .ok ()) (side : Side) (row : Nat) :
    (j.joinPair left right s).2 ≠ .error (.unsorted side row) := by
  intro he
  rcases j.joinPair_cases left right s with ⟨e, herror, _⟩ | ⟨e, _, _, hjoin⟩ | ⟨_, _, hjoin⟩
  · rw [h] at herror
    cases herror
  · rw [hjoin] at he
    cases he
  · rw [hjoin] at he
    cases hfinish : Output.finish _ <;> rw [hfinish] at he <;> cases he

/-- Joining sorted inputs gives a tile that shows the nested-loop join, or none if that is empty. -/
theorem joinPair_eq_ok_of_sorted (h : KeyedInputs j.plan left right)
    (hsorted : SortedInputs j.plan left right) {out : Option Tile}
    (hout : (j.joinPair left right s).2 = .ok out) :
    (j.plan.nestedLoop j.params left right = [] ∧ out = none) ∨
      (j.plan.nestedLoop j.params left right ≠ [] ∧
        ∃ t, out = some t ∧ t.ShowsPairs left right (j.plan.nestedLoop j.params left right)) := by
  rcases j.joinPair_cases left right s with ⟨e, _, hjoin⟩ | ⟨e, _, _, hjoin⟩ | ⟨_, hending, hjoin⟩
  · rw [hjoin] at hout
    cases hout
  · rw [hjoin] at hout
    cases hout
  · rw [hjoin, hsorted.emittedPairs_eq hending] at hout
    have hpairs : ∀ q ∈ j.plan.nestedLoop j.params left right,
        q.1 < left.rowCount ∧ q.2 < right.rowCount := fun q hq => (Plan.mem_nestedLoop.1 hq).1
    rcases Output.finish_append_cases ((Tile.check_eq_ok_iff left).1 h.leftCheck)
      ((Tile.check_eq_ok_iff right).1 h.rightCheck) hpairs with
      ⟨hnil, hfinish⟩ | ⟨hne, t, hfinish, _, hshows⟩
    · rw [hfinish] at hout
      exact .inl ⟨hnil, (Except.ok.inj hout).symm⟩
    · rw [hfinish] at hout
      exact .inr ⟨hne, t, (Except.ok.inj hout).symm, hshows⟩

end Join

/-- With verification on, a pair fails on the left tile exactly if that has an inversion, otherwise
    on the right tile exactly if that has one, each time at the first descent and without any trace
    in the statistics. In every other case the join behaves as it does without verification. So
    whatever tile is emitted shows the nested-loop join of the pair. -/
theorem joinPair_verified {j : Join} (hverify : j.config.verifySortedInputs = true)
    {left right : Tile} (h : KeyedInputs j.plan left right) (s : Stats) :
    (HasInversion j.plan.clauses .left left →
        ∃ row, IsFirstDescent j.plan.clauses .left left row ∧
          j.joinPair left right s = (s, .error (.unsorted .left row))) ∧
      (¬ HasInversion j.plan.clauses .left left → HasInversion j.plan.clauses .right right →
        ∃ row, IsFirstDescent j.plan.clauses .right right row ∧
          j.joinPair left right s = (s, .error (.unsorted .right row))) ∧
      (¬ HasInversion j.plan.clauses .left left → ¬ HasInversion j.plan.clauses .right right →
        j.joinPair left right s = j.unverified.joinPair left right s ∧
          ∀ side row, (j.joinPair left right s).2 ≠ .error (.unsorted side row)) ∧
      ∀ out, (j.joinPair left right s).2 = .ok out →
        (j.plan.nestedLoop j.params left right = [] ∧ out = none) ∨
          (j.plan.nestedLoop j.params left right ≠ [] ∧ ∃ t, out = some t ∧
            t.ShowsPairs left right (j.plan.nestedLoop j.params left right)) := by
  refine ⟨Join.joinPair_of_left_inversion h hverify,
    Join.joinPair_of_right_inversion h hverify, fun hleft hright => ?_, fun out hout => ?_⟩
  · have hcheck := Join.checkPair_eq_ok h hverify hleft hright
    exact ⟨Join.joinPair_unverified hcheck (Join.checkPair_unverified h),
      Join.joinPair_ne_unsorted hcheck⟩
  · have hleft : ¬ HasInversion j.plan.clauses .left left := by
      intro hleft
      obtain ⟨row, _, hjoin⟩ := Join.joinPair_of_left_inversion (s := s) h hverify hleft
      rw [hjoin] at hout
      cases hout
    have hright : ¬ HasInversion j.plan.clauses .right right := by
      intro hright
      obtain ⟨row, _, hjoin⟩ := Join.joinPair_of_right_inversion (s := s) h hverify hleft hright
      rw [hjoin] at hout
      cases hout
    exact Join.joinPair_eq_ok_of_sorted h (h.sorted hleft hright) hout

/-- The keys of `orders`, the last two in the wrong order. -/
def Example.returns : Tile :=
  Example.tile [[.int32 1, .float64 0x3ff0000000000000, .int64 3, .int32 2],
    [.null, .null, .null, .bool true]] 4

/-- The left tile is sorted, so the pair fails at the descent of the right one. -/
theorem joinPair_verified_returns :
    KeyedInputs Example.plan Example.stock Example.returns ∧
      Join.joinPair ⟨Example.plan, { verifySortedInputs := true }, []⟩ Example.stock
        Example.returns {} = ({}, .error (.unsorted .right 3)) := by
  have hinputs : KeyedInputs Example.plan Example.stock Example.returns :=
    ⟨by decide, by decide, by decide, by decide, by decide, by decide, by decide⟩
  have hleft : ¬ HasInversion Example.plan.clauses .left Example.stock :=
    (not_hasInversion_iff hinputs.leftKeys).2 (by decide)
  have hright : HasInversion Example.plan.clauses .right Example.returns :=
    ⟨2, 3, by decide, by decide, by decide⟩
  have hverified := joinPair_verified (j := ⟨Example.plan, { verifySortedInputs := true }, []⟩) rfl
    hinputs {}
  obtain ⟨row, hfirst, hjoin⟩ := hverified.2.1 hleft hright
  have hrow : row = 3 := hfirst.unique ⟨by decide, by decide, by decide, by decide⟩
  rw [hrow] at hjoin
  exact ⟨hinputs, hjoin⟩

end SortMerge

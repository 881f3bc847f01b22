import SortMerge.Proofs.Join.Pair
import SortMerge.Proofs.Tile.Whole

set_option autoImplicit false

/-! # Joins see values only

Joining a pair of tiles looks at their rows, at the number of rows and columns, and at nothing else:
groups are found in the same places, the same pairs of rows match, errors report the same counts.
The position lists come back in only when the output is put together, where they are looked through
again. So a join cannot tell tiles that show the same apart, and each tile may be replaced by a copy
of its values. -/

namespace SortMerge

variable {clauses : List Clause} {side : Side} {t t' left left' right right' : Tile}

/-! ## Walks and merges -/

namespace Tile.SameView

section Walks

variable (h : t.SameView t')
include h

theorem groupEndFrom_eq (remaining row : Nat) :
    groupEndFrom clauses side t remaining row = groupEndFrom clauses side t' remaining row := by
  induction remaining generalizing row with
  | zero => rfl
  | succ remaining ih => simp only [groupEndFrom, h.row_eq, ih]

theorem groupsFrom_eq (bound start : Nat) :
    groupsFrom clauses side t bound start = groupsFrom clauses side t' bound start := by
  induction bound generalizing start with
  | zero => rfl
  | succ bound ih => simp only [groupsFrom, groupEnd, h.groupEndFrom_eq, h.rows, ih]

theorem groups_eq : groups clauses side t = groups clauses side t' := by
  rw [groups, groups, h.groupsFrom_eq, h.rows]

theorem checkSortedFrom_eq (remaining row : Nat) :
    Join.checkSortedFrom clauses side t remaining row
      = Join.checkSortedFrom clauses side t' remaining row := by
  induction remaining generalizing row with
  | zero => rfl
  | succ remaining ih => simp only [Join.checkSortedFrom, h.row_eq, ih]

theorem checkSorted_eq : Join.checkSorted clauses side t = Join.checkSorted clauses side t' := by
  rw [Join.checkSorted, Join.checkSorted, h.checkSortedFrom_eq, h.rows]

end Walks

section Pairs

variable (hl : left.SameView left') (hr : right.SameView right')
include hl hr

theorem mergeGroups_eq (p : Plan) (params : List Scalar)
    (gs hs : Trail (Option ExprError) Group) :
    p.mergeGroups params left right gs hs = p.mergeGroups params left' right' gs hs := by
  fun_induction Plan.mergeGroups p params left right gs hs with
  | case1 | case2 | case3 | case4 => simp [Plan.mergeGroups, *]
  | case5 g gs h hs l r e he =>
      simp only [l, r, hl.row_eq, hr.row_eq] at he
      simp [Plan.mergeGroups, he]
  | case6 g gs h hs l r hlt ih =>
      simp only [l, r, hl.row_eq, hr.row_eq] at hlt
      rw [ih]
      simp [Plan.mergeGroups, hlt]
  | case7 g gs h hs l r hgt ih =>
      simp only [l, r, hl.row_eq, hr.row_eq] at hgt
      rw [ih]
      simp [Plan.mergeGroups, hgt]
  | case8 g gs h hs l r heq e he =>
      simp only [l, r, hl.row_eq, hr.row_eq] at heq he
      simp [Plan.mergeGroups, heq, he]
  | case9 g gs h hs l r heq kept hkept ih =>
      simp only [l, r, hl.row_eq, hr.row_eq] at heq hkept
      rw [ih]
      simp [Plan.mergeGroups, heq, hkept]

theorem merge_eq (p : Plan) (params : List Scalar) :
    p.merge params left right = p.merge params left' right' := by
  rw [Plan.merge, Plan.merge, mergeGroups_eq hl hr, hl.groups_eq, hr.groups_eq]

end Pairs

end Tile.SameView

/-- Both tiles are sound, and they show the same. -/
structure Tile.Interchangeable (t t' : Tile) : Prop extends t.SameView t' where
  sound : t.Sound
  sound' : t'.Sound

theorem Tile.Complete.interchangeable_copy (h : t.Complete) :
    t.Interchangeable (.whole t.materialize) :=
  ⟨h.sameView_copy, h.sound, sound_whole _⟩

/-! ## Outputs -/

namespace Output

section Views

variable {o o' : Output} (hl : o.left.Interchangeable o'.left)
  (hr : o.right.Interchangeable o'.right) (hpairs : o.pairs = o'.pairs) (h : o.Within)
include hl hr hpairs h

theorem within_of_interchangeable : o'.Within := by
  intro q hq
  rw [← hpairs] at hq
  rw [← hl.rows, ← hr.rows]
  exact h q hq

/-- Outputs of the same pairs of rows of tiles that show the same show the same. -/
theorem sameView_draft : o.draft.SameView o'.draft := by
  have h' := within_of_interchangeable hl hr hpairs h
  have hcount : o.draft.rowCount = o.pairs.length := h.rowCount_eq
  have hcount' : o'.draft.rowCount = o'.pairs.length := h'.rowCount_eq
  rw [← hpairs] at hcount'
  refine ⟨?_, hcount.trans hcount'.symm, fun c k => ?_⟩
  · have hleftNames := hl.names
    have hrightNames := hr.names
    simp only [draft, columns, List.map_append, List.map_map]
    rw [hleftNames]
    exact congrArg _ hrightNames
  · by_cases hk : k < o.pairs.length
    · have hq : o.pairs[k]? = some o.pairs[k] := List.getElem?_eq_getElem hk
      have hq' : o'.pairs[k]? = some o.pairs[k] := by rw [← hpairs, hq]
      by_cases hc : c < o.left.columnCount
      · have hc' : c < o'.left.columnCount := hl.columnCount_eq ▸ hc
        rw [draft_value_left hl.sound h hq hc, draft_value_left hl.sound' h' hq' hc', hl.values]
      · obtain ⟨d, rfl⟩ := Nat.exists_eq_add_of_le (Nat.le_of_not_lt hc)
        rw [draft_value_right hr.sound h hq, hl.columnCount_eq,
          draft_value_right hr.sound' h' hq', hr.values]
    -- past the last pair there are no values on either side
    · have hsound := draft_sound hl.sound hr.sound h
      have hsound' := draft_sound hl.sound' hr.sound' h'
      rw [(hsound.value_eq_none_iff c k).2 (.inr (.inl (by omega))),
        (hsound'.value_eq_none_iff c k).2 (.inr (.inl (by omega)))]

/-- So do their copies, once they are finished. -/
theorem materialize_finish :
    o'.finish.map (Option.map Tile.materialize) = o.finish.map (Option.map Tile.materialize) := by
  have h' := within_of_interchangeable hl hr hpairs h
  have hview := sameView_draft hl hr hpairs h
  rw [finish_eq hl.sound hr.sound h, finish_eq hl.sound' hr.sound' h']
  by_cases hnil : o.pairs = []
  · rw [if_pos hnil, if_pos (hpairs ▸ hnil)]
  · rw [if_neg hnil, if_neg (hpairs ▸ hnil)]
    exact congrArg (fun b => Except.ok (some b)) hview.materialize_eq.symm

end Views

end Output

/-! ## Joining a pair -/

/-- The checks of an input see whether there are columns, and no more of a sound tile. -/
theorem Tile.Interchangeable.checkInput_eq (h : t.Interchangeable t') :
    Join.checkInput side t = Join.checkInput side t' := by
  have hcount := h.columnCount_eq
  rw [columnCount, columnCount] at hcount
  by_cases hnil : t.columns = []
  · have hnil' : t'.columns = [] := by
      rw [← List.length_eq_zero_iff, ← hcount, hnil, List.length_nil]
    simp [Join.checkInput, hnil, hnil']
  · have hnil' : t'.columns ≠ [] := by
      rw [← List.length_pos_iff, ← hcount, List.length_pos_iff]
      exact hnil
    rw [checkInput_eq_ok side ((check_eq_ok_iff t).2 h.sound) hnil,
      checkInput_eq_ok side ((check_eq_ok_iff t').2 h.sound') hnil']

namespace Join

theorem map_mapError {ε ε' α β : Type} (f : ε → ε') (g : α → β) (x : Except ε α) :
    (x.mapError f).map g = (x.map g).mapError f := by
  cases x <;> rfl

variable {j : Join} (hl : left.Interchangeable left') (hr : right.Interchangeable right')
include hl hr

theorem checkPair_eq : j.checkPair left right = j.checkPair left' right' := by
  rw [checkPair, checkPair, hl.checkInput_eq, hr.checkInput_eq, hl.checkSorted_eq,
    hr.checkSorted_eq]

/-- Of sound tiles, joining sees nothing but what they show. -/
theorem joinPair_eq_of_interchangeable (s : Stats) :
    (j.joinPair left' right' s).1 = (j.joinPair left right s).1 ∧
      (j.joinPair left' right' s).2.map (Option.map Tile.materialize)
        = (j.joinPair left right s).2.map (Option.map Tile.materialize) := by
  have hcheck : j.checkPair left right = j.checkPair left' right' := checkPair_eq hl hr
  have hmerge := Tile.SameView.merge_eq hl.toSameView hr.toSameView j.plan j.params
  rcases j.joinPair_cases left right s with ⟨e, herror, hjoin⟩ | ⟨e, hok, hending, hjoin⟩ |
    ⟨hok, hending, hjoin⟩
  · rw [hjoin, joinPair_of_checkPair_error (hcheck.symm.trans herror)]
    exact ⟨rfl, rfl⟩
  · rw [hmerge] at hending
    rw [hjoin, joinPair_of_ending_some (hcheck.symm.trans hok) hending]
    exact ⟨rfl, rfl⟩
  · let pairs := emittedPairs (j.plan.merge j.params left right).toList
    have hwithin : ((Output.empty left right).append pairs).Within := by
      refine (Output.within_empty left right).append fun q hq => ?_
      exact mem_rowPairs.1 (mem_rowPairs_of_mem_emittedPairs hq)
    have hcopies : ((Output.empty left' right').append pairs).finish.map
        (Option.map Tile.materialize)
          = ((Output.empty left right).append pairs).finish.map (Option.map Tile.materialize) :=
      Output.materialize_finish hl hr rfl hwithin
    simp only [pairs] at hcopies
    rw [hmerge] at hjoin hending hcopies
    rw [hjoin, joinPair_of_ending_none (hcheck.symm.trans hok) hending]
    refine ⟨rfl, ?_⟩
    rw [map_mapError, map_mapError, hcopies]

end Join

/-- The copy of a full tile with columns can be shown as a tile again, and shows the same. Joining
    two such tiles and joining their copies comes to the same, whatever the plan, the settings, the
    parameters and the statistics so far: the same error, or no rows, or tiles with equal copies,
    and the same statistics. -/
theorem joinPair_of_copies :
    (∀ t : Tile, t.Complete → ∃ t', Tile.ofBatch? t.materialize = .ok t' ∧ t.SameView t') ∧
      ∀ left right left' right' : Tile, left.Complete → right.Complete →
        Tile.ofBatch? left.materialize = .ok left' → Tile.ofBatch? right.materialize = .ok right' →
          ∀ (j : Join) (s : Stats),
            (j.joinPair left' right' s).1 = (j.joinPair left right s).1 ∧
              (j.joinPair left' right' s).2.map (Option.map Tile.materialize)
                = (j.joinPair left right s).2.map (Option.map Tile.materialize) := by
  have hcopy : ∀ t : Tile, t.Complete → Tile.ofBatch? t.materialize = .ok (.whole t.materialize) :=
    fun t ht => Tile.ofBatch?_eq_ok_iff.2 ⟨Tile.check_materialize ht.columns, rfl⟩
  refine ⟨fun t ht => ⟨_, hcopy t ht, ht.sameView_copy⟩, ?_⟩
  intro left right left' right' hleft hright hleft' hright' j s
  rw [hcopy left hleft, Except.ok.injEq] at hleft'
  rw [hcopy right hright, Except.ok.injEq] at hright'
  subst hleft' hright'
  exact Join.joinPair_eq_of_interchangeable hleft.interchangeable_copy hright.interchangeable_copy s

namespace Example

/-- Two batches behind three lists: one for two columns, one that repeats a row, and one that no
    column names. -/
def parts : Tile :=
  let bins : Batch := ⟨[⟨"bin", [.int32 5, .int32 1]⟩]⟩
  let names : Batch := ⟨[⟨"id", [.null, .int64 7]⟩, ⟨"part", [.text "bolt", .text "nut"]⟩]⟩
  ⟨[⟨bins, 0, 2⟩, ⟨names, 1, 1⟩, ⟨names, 0, 1⟩], [[9, 9, 9], [0, 1, 1], [1, 0, 0]]⟩

def picks : Tile := ⟨[⟨⟨[⟨"bin", [.int16 4, .int16 5]⟩]⟩, 0, 1⟩], [[0], [1]]⟩

/-- What two of the parts and the pick show side by side. -/
def picked : Batch :=
  ⟨[⟨"bin", [.int32 5, .int32 5]⟩, ⟨"part", [.text "nut", .text "nut"]⟩,
    ⟨"id", [.int64 7, .int64 7]⟩, ⟨"bin", [.int16 5, .int16 5]⟩]⟩

end Example

/-- The copies have other lists than the tiles, and the same rows come out of joining them. -/
theorem joinPair_of_copies_parts :
    (Example.parts.Complete ∧ Example.picks.Complete) ∧
      ∃ left' right', Tile.ofBatch? Example.parts.materialize = .ok left' ∧
        Tile.ofBatch? Example.picks.materialize = .ok right' ∧
        left'.lists ≠ Example.parts.lists ∧
        (Join.joinPair ⟨Example.byFirst, {}, []⟩ left' right' {}).2.map (Option.map Tile.materialize)
          = .ok (some Example.picked) := by
  have hparts : Example.parts.Complete := ⟨by decide, by decide, by decide⟩
  have hpicks : Example.picks.Complete := ⟨by decide, by decide, by decide⟩
  obtain ⟨hcopies, hjoin⟩ := joinPair_of_copies
  obtain ⟨left', hleft', -⟩ := hcopies _ hparts
  obtain ⟨right', hright', -⟩ := hcopies _ hpicks
  refine ⟨⟨hparts, hpicks⟩, left', right', hleft', hright', ?_, ?_⟩
  · have hwhole := (Tile.ofBatch?_eq_ok_iff.1 hleft').2
    rw [hwhole]
    decide
  · rw [(hjoin _ _ _ _ hparts hpicks hleft' hright' ⟨Example.byFirst, {}, []⟩ {}).2]
    have hsorted : SortedInputs Example.byFirst Example.parts Example.picks := by decide
    have hending : (Example.byFirst.merge [] Example.parts Example.picks).ending = none :=
      hsorted.ending_eq_none_iff.2 (by decide)
    rw [Join.joinPair_of_ending_none rfl hending, hsorted.emittedPairs_eq hending]
    rfl

end SortMerge

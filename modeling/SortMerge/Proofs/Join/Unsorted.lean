import SortMerge.Proofs.Join.NestedLoop

set_option autoImplicit false

/-! # Merging tiles that are not sorted

Sortedness is only checked on request, so any tile may reach the merge. Rows are then missed, but
none are made up: the merge moves through both walks without going back, so its matches are
disjoint on either side, and it only compares neighbours and first rows, which by transitivity is
enough for equal keys on every pair of rows. Nothing here asks for keys on rows that the merge does
not look at, nor for the merge to go through. -/

namespace SortMerge

variable {p : Plan} {params : List Scalar} {left right : Tile}

/-! ## Disjoint matches -/

/-- If the groups of successive matches follow one another, a row is in one of them only. -/
theorem eq_of_mem_rows {ms : List Match} {f : Match → Group}
    (h : ms.Pairwise fun m m' => (f m).stop ≤ (f m').first) {m m' : Match} (hm : m ∈ ms)
    (hm' : m' ∈ ms) {i : Nat} (hi : i ∈ (f m).rows) (hi' : i ∈ (f m').rows) : m = m' := by
  rw [Group.mem_rows] at hi hi'
  induction ms with
  | nil => cases hm
  | cons m₀ ms ih =>
      obtain ⟨hhead, htail⟩ := List.pairwise_cons.1 h
      rcases List.mem_cons.1 hm with rfl | hrest
      · rcases List.mem_cons.1 hm' with rfl | hrest'
        · rfl
        · have hle := hhead m' hrest'
          omega
      · rcases List.mem_cons.1 hm' with rfl | hrest'
        · have hle := hhead m hrest
          omega
        · exact ih htail hrest hrest'

/-- A left row of a match that is kept is paired with the right rows of that match and no others. -/
theorem mem_emittedPairs_iff_of_left {m : Match} (hm : m ∈ (p.merge params left right).toList)
    (hkept : m.kept = true) {l : Nat} (hl : l ∈ m.left.rows) (r : Nat) :
    (l, r) ∈ emittedPairs (p.merge params left right).toList ↔ r ∈ m.right.rows := by
  rw [mem_emittedPairs]
  constructor
  · rintro ⟨m', hm', -, hl', hr'⟩
    have heq : m = m' := eq_of_mem_rows (merge_pairwise.imp And.left) hm hm' hl hl'
    rw [heq]
    exact hr'
  · intro hr
    exact ⟨m, hm, hkept, hl, hr⟩

theorem mem_emittedPairs_iff_of_right {m : Match} (hm : m ∈ (p.merge params left right).toList)
    (hkept : m.kept = true) {r : Nat} (hr : r ∈ m.right.rows) (l : Nat) :
    (l, r) ∈ emittedPairs (p.merge params left right).toList ↔ l ∈ m.left.rows := by
  rw [mem_emittedPairs]
  constructor
  · rintro ⟨m', hm', -, hl', hr'⟩
    have heq : m = m' := eq_of_mem_rows (merge_pairwise.imp And.right) hm hm' hr hr'
    rw [heq]
    exact hl'
  · intro hl
    exact ⟨m, hm, hkept, hl, hr⟩

/-! ## Bounds -/

theorem length_rowPairs (left right : Tile) :
    (rowPairs left right).length = left.rowCount * right.rowCount := by
  simp [rowPairs, List.length_flatMap]

/-- Strictly increasing pairs of existing rows are no more than all pairs of rows. -/
theorem length_le_of_pairwise_rowOrder {pairs : List (Nat × Nat)} (h : pairs.Pairwise RowOrder)
    (hrows : ∀ q ∈ pairs, q ∈ rowPairs left right) :
    pairs.length ≤ left.rowCount * right.rowCount := by
  rw [← length_rowPairs]
  exact (List.subperm_of_subset h.nodup hrows).length_le

theorem mem_rowPairs_of_mem_emittedPairs {q : Nat × Nat}
    (hq : q ∈ emittedPairs (p.merge params left right).toList) : q ∈ rowPairs left right := by
  obtain ⟨m, hm, -, hl, hr⟩ := mem_emittedPairs.1 hq
  obtain ⟨hleft, hright, -⟩ := isMatch_of_mem_merge hm
  rw [Group.mem_rows] at hl hr
  exact mem_rowPairs.2
    ⟨Nat.lt_of_lt_of_le hl.2 hleft.stop_le, Nat.lt_of_lt_of_le hr.2 hright.stop_le⟩

/-! ## Soundness without order -/

/-- Whatever the order of the rows, and whether or not the pass goes through, a merge emits strictly
    increasing pairs of rows of the two tiles, with equal keys on every clause. Each row that is
    paired at all is paired with the rows of one group of the other tile. The count of emitted pairs
    is right, and it is at most the number of all pairs of rows. -/
theorem merge_sound {p : Plan} (params : List Scalar) (left right : Tile)
    (hvalid : p.validate = .ok ()) :
    (emittedPairs (p.merge params left right).toList).Pairwise RowOrder ∧
      (∀ q ∈ emittedPairs (p.merge params left right).toList,
        q.1 < left.rowCount ∧ q.2 < right.rowCount ∧
          sameKey p.clauses .left (left.row q.1) .right (right.row q.2) = true ∧
          (∃ g, IsGroup p.clauses .right right g ∧
            ∀ r, (q.1, r) ∈ emittedPairs (p.merge params left right).toList ↔ r ∈ g.rows) ∧
          ∃ g, IsGroup p.clauses .left left g ∧
            ∀ l, (l, q.2) ∈ emittedPairs (p.merge params left right).toList ↔ l ∈ g.rows) ∧
      (PassStats.ofMatches (p.merge params left right).toList).emitted
        = (emittedPairs (p.merge params left right).toList).length ∧
      (PassStats.ofMatches (p.merge params left right).toList).emitted
        ≤ left.rowCount * right.rowCount := by
  have hincreasing : (emittedPairs (p.merge params left right).toList).Pairwise RowOrder :=
    emittedPairs_pairwise (merge_pairwise.imp And.left)
  have hbound := length_le_of_pairwise_rowOrder hincreasing fun q hq =>
    mem_rowPairs_of_mem_emittedPairs hq
  have hreads := ((Plan.validate_eq_ok_iff p).1 hvalid).2
  rw [← length_emittedPairs]
  refine ⟨hincreasing, fun q hq => ?_, rfl, hbound⟩
  obtain ⟨hl, hr⟩ := mem_rowPairs.1 (mem_rowPairs_of_mem_emittedPairs hq)
  obtain ⟨m, hm, hkept, hlm, hrm⟩ := mem_emittedPairs.1 hq
  obtain ⟨hleft, hright, -⟩ := isMatch_of_mem_merge hm
  exact ⟨hl, hr, sameKey_of_mem_pairs hreads hm (Match.mem_pairs.2 ⟨hlm, hrm⟩),
    ⟨m.right, hright, mem_emittedPairs_iff_of_left hm hkept hlm⟩,
    ⟨m.left, hleft, mem_emittedPairs_iff_of_right hm hkept hrm⟩⟩

namespace Example

def byFirst : Plan := { clauses := [.onColumns 0 0] }

/-- Keys that go down. -/
def falling : Tile := tile [[.int32 2, .int32 2, .int16 1]] 3

/-- The same keys, rising. -/
def rising : Tile := tile [[.int64 1, .int64 2]] 2

end Example

/-- The pair of the last left row and the first right one is missed, and the others are fine. -/
theorem merge_sound_falling :
    (Example.byFirst.validate = .ok () ∧
        ¬ SortedOn Example.byFirst.clauses .left Example.falling) ∧
      emittedPairs (Example.byFirst.merge [] Example.falling Example.rising).toList
        = [(0, 1), (1, 1)] ∧
      (∀ q ∈ [(0, 1), (1, 1)], sameKey Example.byFirst.clauses .left (Example.falling.row q.1)
        .right (Example.rising.row q.2) = true) ∧
      (PassStats.ofMatches (Example.byFirst.merge [] Example.falling
        Example.rising).toList).emitted = 2 := by
  have hvalid : Example.byFirst.validate = .ok () := by decide
  have hleft : groups Example.byFirst.clauses .left Example.falling
      = .step ⟨0, 2⟩ (.step ⟨2, 3⟩ (.stop none)) := rfl
  have hright : groups Example.byFirst.clauses .right Example.rising
      = .step ⟨0, 1⟩ (.step ⟨1, 2⟩ (.stop none)) := rfl
  have habove : pairOrder Example.byFirst.clauses (Example.falling.row 0) (Example.rising.row 0)
      = .ok .gt := by decide
  have hequal : pairOrder Example.byFirst.clauses (Example.falling.row 0) (Example.rising.row 1)
      = .ok .eq := by decide
  have haccepts (l r : Row) : Example.byFirst.accepts [] l r = .ok true := rfl
  have hmerge : Example.byFirst.merge [] Example.falling Example.rising
      = .step ⟨⟨0, 2⟩, ⟨1, 2⟩, true⟩ (.stop none) := by
    rw [Plan.merge, hleft, hright, Plan.mergeGroups]
    simp only [habove]
    rw [Plan.mergeGroups]
    simp only [hequal, haccepts]
    simp [Plan.mergeGroups]
  have hsound := merge_sound [] Example.falling Example.rising hvalid
  rw [hmerge] at hsound ⊢
  refine ⟨⟨hvalid, by decide⟩, rfl, fun q hq => (hsound.2.1 q hq).2.2.1, hsound.2.2.1⟩

end SortMerge

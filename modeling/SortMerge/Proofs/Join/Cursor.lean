import SortMerge.Proofs.Join.NestedLoop

set_option autoImplicit false

/-! # Groups as a cursor visits them

A cursor stands on one group of a tile. It starts on the group of the first row, moves on to the
group that starts where its own ends, and is done on an empty group. `Visits` describes such a walk
without anything that bounds it; a description is a finite tree, so there is one only if the walk
ends. On every tile there is exactly one, and the groups in it are those of `groups`.

Where all keys can be computed, the groups visited cut the rows of the tile into runs of equal keys
between which the keys differ, and from any of its rows a group is found to end where it does. A
tile need not be sorted for that. In a sorted one no key comes back in a later group. -/

namespace SortMerge

variable {clauses : List Clause} {side : Side} {t : Tile}

/-! ## Cursors -/

namespace Group

/-- The group that starts at a row; past the last row it is empty. -/
def startingAt (clauses : List Clause) (side : Side) (t : Tile) (start : Nat) :
    Except ExprError Group :=
  match groupEnd clauses side t start with
  | .error e => .error e
  | .ok stop => .ok ⟨start, stop⟩

/-- The group after the given one. -/
def next (clauses : List Clause) (side : Side) (t : Tile) (g : Group) : Except ExprError Group :=
  startingAt clauses side t g.stop

def isEmpty (g : Group) : Bool := g.stop ≤ g.first

theorem isEmpty_eq_false_iff {g : Group} : g.isEmpty = false ↔ g.first < g.stop := by
  simp [isEmpty]

end Group

/-- The groups that a cursor visits from where it stands, and what stops it: an empty group, or an
    error on the way to the next one. -/
inductive Visits (clauses : List Clause) (side : Side) (t : Tile) :
    Except ExprError Group → List Group → Except ExprError Group → Prop
  | failed {e : ExprError} : Visits clauses side t (.error e) [] (.error e)
  | done {g : Group} (empty : g.isEmpty = true) : Visits clauses side t (.ok g) [] (.ok g)
  | visited {g : Group} {gs : List Group} {last : Except ExprError Group}
      (nonempty : g.isEmpty = false)
      (rest : Visits clauses side t (g.next clauses side t) gs last) :
      Visits clauses side t (.ok g) (g :: gs) last

/-- A cursor can go one way only. -/
theorem Visits.unique {cursor last last' : Except ExprError Group} {gs gs' : List Group}
    (h : Visits clauses side t cursor gs last) (h' : Visits clauses side t cursor gs' last') :
    gs = gs' ∧ last = last' := by
  induction h generalizing gs' with
  | failed =>
      cases h'
      exact ⟨rfl, rfl⟩
  | done hempty =>
      cases h' with
      | done => exact ⟨rfl, rfl⟩
      | visited hne => rw [hempty] at hne; cases hne
  | visited hne _ ih =>
      cases h' with
      | done hempty => rw [hne] at hempty; cases hempty
      | visited _ hrest =>
          obtain ⟨rfl, rfl⟩ := ih hrest
          exact ⟨rfl, rfl⟩

/-! ## The walk over a tile -/

/-- A start past the last row is its own end. -/
theorem groupEnd_of_rowCount_le {start : Nat} (h : t.rowCount ≤ start) :
    groupEnd clauses side t start = .ok start := by
  rw [groupEnd, if_pos h]

/-- Behind the last row a cursor is done. -/
theorem visits_end : Visits clauses side t (Group.startingAt clauses side t t.rowCount) []
    (.ok ⟨t.rowCount, t.rowCount⟩) := by
  rw [Group.startingAt, groupEnd_of_rowCount_le (Nat.le_refl _)]
  exact .done (by simp [Group.isEmpty])

/-- Where a cursor comes to stand: behind the last row, unless it met an error. -/
def Tile.lastCursor (t : Tile) : Option ExprError → Except ExprError Group
  | none => .ok ⟨t.rowCount, t.rowCount⟩
  | some e => .error e

/-- From a row on, a cursor visits the groups of a walk that has room for all rows. -/
theorem visits_groupsFrom {bound start : Nat} (hstart : start ≤ t.rowCount)
    (hbound : t.rowCount ≤ start + bound) :
    Visits clauses side t (Group.startingAt clauses side t start)
      (groupsFrom clauses side t bound start).toList
      (t.lastCursor (groupsFrom clauses side t bound start).ending) := by
  fun_induction groupsFrom clauses side t bound start with
  | case1 start =>
      obtain rfl : start = t.rowCount := by omega
      exact visits_end
  | case2 bound start hle =>
      obtain rfl : start = t.rowCount := by omega
      exact visits_end
  | case3 bound start hlt e he =>
      rw [Group.startingAt, he]
      exact .failed
  | case4 bound start hlt stop hstop ih =>
      obtain ⟨hne, hle⟩ := lt_groupEnd (by omega) hstop
      rw [Group.startingAt, hstop]
      exact .visited (Group.isEmpty_eq_false_iff.2 hne) (ih hle (by omega))

/-- On every tile a cursor visits the groups of the tile, and nothing else. -/
theorem visits_iff {gs : List Group} {last : Except ExprError Group} :
    Visits clauses side t (Group.startingAt clauses side t 0) gs last ↔
      gs = (groups clauses side t).toList ∧ last = t.lastCursor (groups clauses side t).ending := by
  have hvisits : Visits clauses side t (Group.startingAt clauses side t 0)
      (groups clauses side t).toList (t.lastCursor (groups clauses side t).ending) :=
    visits_groupsFrom (Nat.zero_le _) (by omega)
  constructor
  · intro h
    exact h.unique hvisits
  · rintro ⟨rfl, rfl⟩
    exact hvisits

/-! ## Ends seen from inside -/

/-- If neighbours have equal keys up to a row at which the tile ends or the key changes, the search
    for the end stops there. -/
theorem groupEndFrom_eq_ok {remaining row stop : Nat} (hle : row ≤ stop)
    (hstop : stop ≤ row + remaining)
    (hjoined : ∀ i, row ≤ i → i < stop →
      keyOrder clauses side (t.row (i - 1)) (t.row i) = .ok .eq)
    (hends : stop < row + remaining →
      ∃ o, keyOrder clauses side (t.row (stop - 1)) (t.row stop) = .ok o ∧ o ≠ .eq) :
    groupEndFrom clauses side t remaining row = .ok stop := by
  induction remaining generalizing row with
  | zero =>
      obtain rfl : row = stop := by omega
      rfl
  | succ remaining ih =>
      by_cases hrow : row < stop
      · rw [groupEndFrom, hjoined row (Nat.le_refl _) hrow]
        exact ih hrow (by omega) (fun i hi => hjoined i (by omega)) fun _ => hends (by omega)
      · obtain rfl : row = stop := by omega
        obtain ⟨o, ho, hne⟩ := hends (by omega)
        rw [groupEndFrom, ho]
        cases o with
        | eq => exact absurd rfl hne
        | lt => rfl
        | gt => rfl

/-- From any row of a group the end that is found is the end of the group. -/
theorem IsGroup.groupEnd_eq {g : Group} (hg : IsGroup clauses side t g) {i : Nat}
    (hi : i ∈ g.rows) : groupEnd clauses side t i = .ok g.stop := by
  obtain ⟨hfirst, hlt⟩ := Group.mem_rows.1 hi
  have hle := hg.stop_le
  rw [groupEnd, if_neg (by omega)]
  refine groupEndFrom_eq_ok (by omega) (by omega) (fun k hk => hg.joined k (by omega)) ?_
  intro hstop
  exact hg.ends (by omega) (by omega)

/-! ## Cutting the rows -/

/-- The groups cut the rows of the tile into runs of equal keys that are as long as they can be. -/
structure CutsRows (clauses : List Clause) (side : Side) (t : Tile) (gs : List Group) : Prop where
  /-- No group is empty. -/
  nonempty : ∀ g ∈ gs, g.first < g.stop
  /-- Every row of the tile is in one group, and the groups have them in order. -/
  covers : gs.flatMap Group.rows = List.range t.rowCount
  /-- Any two rows of a group have equal keys. -/
  joined : ∀ g ∈ gs, ∀ i ∈ g.rows, ∀ k ∈ g.rows,
    sameKey clauses side (t.row i) side (t.row k) = true
  /-- A group starts where the one before it ends, and the keys on either side differ. -/
  parted : gs.IsChain fun g h =>
    g.stop = h.first ∧ sameKey clauses side (t.row (g.stop - 1)) side (t.row h.first) = false

/-- The keys on either side of a boundary inside the tile differ. -/
theorem Boundary.sameKey_eq_false {i : Nat} (h : Boundary clauses side t i) (hpos : 0 < i)
    (hlt : i < t.rowCount) : sameKey clauses side (t.row (i - 1)) side (t.row i) = false := by
  obtain ⟨o, ho, hne⟩ := h hpos hlt
  rw [← Bool.not_eq_true, ← keyOrder_eq_ok_eq_iff, ho]
  rintro ⟨⟩
  exact hne rfl

/-- The first group of a walk starts where the walk does, at a row of the tile. -/
theorem first_of_groupsFrom {bound start : Nat} {g : Group} {rest : Trail (Option ExprError) Group}
    (h : groupsFrom clauses side t bound start = .step g rest) :
    g.first = start ∧ start < t.rowCount := by
  cases bound with
  | zero => cases h
  | succ bound =>
      rw [groupsFrom] at h
      split at h
      · cases h
      · next hinside =>
          split at h
          · cases h
          · cases h
            exact ⟨rfl, Nat.lt_of_not_le hinside⟩

/-- Every group of a walk starts where the one before it ends, at a change of keys. -/
theorem groupsFrom_isChain {bound start : Nat} (hstart : Boundary clauses side t start) :
    (groupsFrom clauses side t bound start).toList.IsChain fun g h =>
      g.stop = h.first ∧
        sameKey clauses side (t.row (g.stop - 1)) side (t.row h.first) = false := by
  fun_induction groupsFrom clauses side t bound start with
  | case1 => exact .nil
  | case2 => exact .nil
  | case3 => exact .nil
  | case4 bound start hlt stop hstop ih =>
      have hgroup := isGroup_of_groupEnd (by omega) hstart hstop
      have hpos : 0 < stop := Nat.zero_lt_of_lt hgroup.first_lt_stop
      have hrest := ih hgroup.ends
      cases hwalk : groupsFrom clauses side t bound stop with
      | stop => exact .singleton _
      | step g rest =>
          rw [hwalk] at hrest
          obtain ⟨rfl, hinside⟩ := first_of_groupsFrom hwalk
          exact .cons_cons ⟨rfl, hgroup.ends.sameKey_eq_false hpos hinside⟩ hrest

theorem HasKeys.cutsRows (h : HasKeys clauses side t) :
    CutsRows clauses side t (groups clauses side t).toList where
  nonempty := fun _ hg => (isGroup_of_mem_groups hg).first_lt_stop
  covers := h.groups_rows
  joined := fun _ hg _ hi _ hk => h.sameKey_of_mem_rows (isGroup_of_mem_groups hg) hi hk
  parted := groupsFrom_isChain boundary_zero

/-- In a sorted tile a later row with the key of a row of a group is in the group too. -/
theorem IsGroup.mem_rows_of_sameKey {g : Group} (hg : IsGroup clauses side t g)
    (hkeys : HasKeys clauses side t) (hsorted : SortedOn clauses side t) {i k : Nat}
    (hi : i ∈ g.rows) (hik : i ≤ k) (hk : k < t.rowCount)
    (hsame : sameKey clauses side (t.row i) side (t.row k) = true) : k ∈ g.rows := by
  obtain ⟨hfirst, hlt⟩ := Group.mem_rows.1 hi
  refine Group.mem_rows.2 ⟨by omega, ?_⟩
  by_contra hstop
  have hless := hg.ends.compareKeys_lt hkeys hsorted hlt (by omega) hk
  rw [sameKey_iff_compareKeys hkeys hkeys (by omega) hk, hless] at hsame
  cases hsame

/-- In a sorted tile rows with equal keys are in one group. -/
theorem HasKeys.exists_group_of_sameKey (h : HasKeys clauses side t)
    (hsorted : SortedOn clauses side t) {i k : Nat} (hi : i < t.rowCount) (hk : k < t.rowCount)
    (hsame : sameKey clauses side (t.row i) side (t.row k) = true) :
    ∃ g ∈ (groups clauses side t).toList, i ∈ g.rows ∧ k ∈ g.rows := by
  rcases Nat.le_total i k with hik | hki
  · obtain ⟨g, hg, hmem⟩ := h.exists_group hi
    exact ⟨g, hg, hmem,
      (isGroup_of_mem_groups hg).mem_rows_of_sameKey h hsorted hmem hik hk hsame⟩
  · obtain ⟨g, hg, hmem⟩ := h.exists_group hk
    exact ⟨g, hg, (isGroup_of_mem_groups hg).mem_rows_of_sameKey h hsorted hmem hki hi
      (sameKey_symm hsame), hmem⟩

/-- On a tile with keys the walk of a cursor ends behind the last row, and the groups it visits cut
    the rows. The end of a group is found from each of its rows, and a start past the last row is
    its own end. If the tile is sorted, rows with equal keys are in one group. -/
theorem cursor_cuts_rows (h : HasKeys clauses side t) :
    ∃ gs, (∀ visited last, Visits clauses side t (Group.startingAt clauses side t 0) visited last ↔
          visited = gs ∧ last = .ok ⟨t.rowCount, t.rowCount⟩) ∧
      gs = (groups clauses side t).toList ∧ CutsRows clauses side t gs ∧
      (∀ g ∈ gs, ∀ i ∈ g.rows, groupEnd clauses side t i = .ok g.stop) ∧
      (∀ start, t.rowCount ≤ start → groupEnd clauses side t start = .ok start) ∧
      (SortedOn clauses side t → ∀ i < t.rowCount, ∀ k < t.rowCount,
        sameKey clauses side (t.row i) side (t.row k) = true →
          ∃ g ∈ gs, i ∈ g.rows ∧ k ∈ g.rows) := by
  refine ⟨(groups clauses side t).toList, fun visited last => ?_, rfl, h.cutsRows, ?_, ?_, ?_⟩
  · rw [visits_iff, h.groups_ending, Tile.lastCursor]
  · intro g hg i hi
    exact (isGroup_of_mem_groups hg).groupEnd_eq hi
  · intro start hstart
    exact groupEnd_of_rowCount_le hstart
  · intro hsorted i hi k hk hsame
    exact h.exists_group_of_sameKey hsorted hi hk hsame

namespace Example

/-- Two columns of keys, of several widths; the keys of the first two rows come back at the end. -/
def returning : Tile :=
  tile [[.int64 1, .float64 0x3ff0000000000000, .int16 2, .int32 1], [.null, .null, .null, .null]] 4

end Example

/-- A key that comes back makes another group; in the sorted tile the rows with a key are in one. -/
theorem cursor_cuts_rows_returning :
    HasKeys Example.plan.clauses .left Example.returning ∧
      Visits Example.plan.clauses .left Example.returning
        (Group.startingAt Example.plan.clauses .left Example.returning 0) [⟨0, 2⟩, ⟨2, 3⟩, ⟨3, 4⟩]
        (.ok ⟨4, 4⟩) ∧
      groupEnd Example.plan.clauses .left Example.returning 1 = .ok 2 ∧
      HasKeys Example.plan.clauses .left Example.stock ∧
      SortedOn Example.plan.clauses .left Example.stock ∧
      (∃ g ∈ (groups Example.plan.clauses .left Example.stock).toList,
        2 ∈ g.rows ∧ 3 ∈ g.rows) := by
  have hvisits : HasKeys Example.plan.clauses .left Example.returning := by decide
  have hstock : HasKeys Example.plan.clauses .left Example.stock := by decide
  have hsorted : SortedOn Example.plan.clauses .left Example.stock := by decide
  obtain ⟨gs, hwalk, hgs, -, hends, -⟩ := cursor_cuts_rows hvisits
  obtain ⟨_, -, rfl, -, -, -, hone⟩ := cursor_cuts_rows hstock
  have hlist : gs = [⟨0, 2⟩, ⟨2, 3⟩, ⟨3, 4⟩] := hgs.trans (by decide)
  subst hlist
  refine ⟨hvisits, (hwalk _ _).2 ⟨rfl, rfl⟩, ?_, hstock, hsorted, ?_⟩
  · exact hends ⟨0, 2⟩ (by decide) 1 (by decide)
  · exact hone hsorted 2 (by decide) 3 (by decide) (by decide)

end SortMerge

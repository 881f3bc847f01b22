import SortMerge.Proofs.Join.Key

set_option autoImplicit false

/-! # Groups are maximal runs

The walk over a tile compares neighbours only. What it finds is described by `IsGroup`: inside a
group neighbours have equal keys, and at both of its ends they differ. In a tile on which all keys
can be computed the groups cover the rows in order, and in a sorted tile every key before a boundary
is below every key after it, so equal keys always stand in one group. -/

namespace SortMerge

variable {clauses : List Clause} {side : Side} {t : Tile}

/-! ## Single groups -/

namespace Group

@[simp] theorem mem_rows {g : Group} {i : Nat} : i ∈ g.rows ↔ g.first ≤ i ∧ i < g.stop := by
  rw [rows, size, List.mem_range'_1]
  omega

@[simp] theorem length_rows (g : Group) : g.rows.length = g.size := List.length_range'

end Group

/-- A row whose key differs from the one above it; so do the first row and the end of a tile. -/
def Boundary (clauses : List Clause) (side : Side) (t : Tile) (i : Nat) : Prop :=
  0 < i → i < t.rowCount →
    ∃ o, keyOrder clauses side (t.row (i - 1)) (t.row i) = .ok o ∧ o ≠ .eq

/-- A run of neighbours with equal keys between two boundaries. -/
structure IsGroup (clauses : List Clause) (side : Side) (t : Tile) (g : Group) : Prop where
  first_lt_stop : g.first < g.stop
  stop_le : g.stop ≤ t.rowCount
  joined : ∀ i, g.first < i → i < g.stop →
    keyOrder clauses side (t.row (i - 1)) (t.row i) = .ok .eq
  starts : Boundary clauses side t g.first
  ends : Boundary clauses side t g.stop

/-- Neighbours below the returned end have equal keys, and at the end they differ unless it is the
    last one that was to be looked at. -/
theorem groupEndFrom_spec {remaining row stop : Nat}
    (h : groupEndFrom clauses side t remaining row = .ok stop) :
    (∀ i, row ≤ i → i < stop → keyOrder clauses side (t.row (i - 1)) (t.row i) = .ok .eq) ∧
      (stop < row + remaining →
        ∃ o, keyOrder clauses side (t.row (stop - 1)) (t.row stop) = .ok o ∧ o ≠ .eq) := by
  fun_induction groupEndFrom clauses side t remaining row with
  | case1 row =>
      cases h
      exact ⟨fun i hi hlt => by omega, fun hlt => by omega⟩
  | case2 => cases h
  | case3 remaining row heq ih =>
      obtain ⟨hjoined, hends⟩ := ih h
      refine ⟨fun i hi hlt => ?_, fun hlt => hends (by omega)⟩
      by_cases hrow : i = row
      · rw [hrow]
        exact heq
      · exact hjoined i (by omega) hlt
  | case4 remaining row o ho hne =>
      cases h
      exact ⟨fun i hi hlt => by omega, fun _ => ⟨o, hne, ho⟩⟩

theorem isGroup_of_groupEnd {start stop : Nat} (hlt : start < t.rowCount)
    (hstart : Boundary clauses side t start) (h : groupEnd clauses side t start = .ok stop) :
    IsGroup clauses side t ⟨start, stop⟩ := by
  obtain ⟨hne, hle⟩ := lt_groupEnd hlt h
  rw [groupEnd, if_neg (by omega)] at h
  obtain ⟨hjoined, hends⟩ := groupEndFrom_spec h
  have hboundary : Boundary clauses side t stop := fun _ hstop => hends (by omega)
  exact ⟨hne, hle, fun i hi => hjoined i hi, hstart, hboundary⟩

theorem IsGroup.first_mem_rows {g : Group} (hg : IsGroup clauses side t g) : g.first ∈ g.rows :=
  Group.mem_rows.2 ⟨Nat.le_refl _, hg.first_lt_stop⟩

theorem IsGroup.first_lt_rowCount {g : Group} (hg : IsGroup clauses side t g) :
    g.first < t.rowCount :=
  Nat.lt_of_lt_of_le hg.first_lt_stop hg.stop_le

/-- Two rows of one group have equal keys. -/
theorem IsGroup.sameKey_of_lt {g : Group} (hg : IsGroup clauses side t g) {i k : Nat}
    (hi : g.first ≤ i) (hik : i < k) (hk : k < g.stop) :
    sameKey clauses side (t.row i) side (t.row k) = true := by
  induction k, hik using Nat.le_induction with
  | base => exact keyOrder_eq_ok_eq_iff.1 (hg.joined (i + 1) (by omega) hk)
  | succ k hik ih =>
      -- only neighbours were compared, the rest is transitivity of having equal keys
      have hstep := keyOrder_eq_ok_eq_iff.1 (hg.joined (k + 1) (by omega) hk)
      exact sameKey_trans (ih (by omega)) hstep

/-- A row that has its key in common with the first row of a group has it with all rows. -/
theorem IsGroup.sameKey_of_first {g : Group} (hg : IsGroup clauses side t g) {s : Side} {b : Row}
    (h : sameKey clauses side (t.row g.first) s b = true) {i : Nat} (hi : i ∈ g.rows) :
    sameKey clauses side (t.row i) s b = true := by
  obtain ⟨hfirst, hstop⟩ := Group.mem_rows.1 hi
  by_cases heq : i = g.first
  · rw [heq]
    exact h
  · have hjoined := hg.sameKey_of_lt (Nat.le_refl _) (show g.first < i by omega) hstop
    exact sameKey_trans (sameKey_symm hjoined) h

/-! ## Walks -/

/-- Every group of a walk is a maximal run, at or after the start of the walk. -/
theorem isGroup_of_mem_groupsFrom {bound start : Nat} {g : Group}
    (hstart : Boundary clauses side t start)
    (hg : g ∈ (groupsFrom clauses side t bound start).toList) :
    IsGroup clauses side t g ∧ start ≤ g.first := by
  fun_induction groupsFrom clauses side t bound start with
  | case1 => cases hg
  | case2 => cases hg
  | case3 => cases hg
  | case4 bound start hlt stop hstop ih =>
      have hgroup := isGroup_of_groupEnd (by omega) hstart hstop
      rw [Trail.toList, List.mem_cons] at hg
      rcases hg with rfl | hg
      · exact ⟨hgroup, Nat.le_refl _⟩
      · obtain ⟨h, hle⟩ := ih hgroup.ends hg
        have hlt : start < stop := hgroup.first_lt_stop
        exact ⟨h, by omega⟩

/-- The groups of a walk follow one another without overlap. -/
theorem groupsFrom_pairwise {bound start : Nat} (hstart : Boundary clauses side t start) :
    (groupsFrom clauses side t bound start).toList.Pairwise fun g h => g.stop ≤ h.first := by
  fun_induction groupsFrom clauses side t bound start with
  | case1 => exact List.Pairwise.nil
  | case2 => exact List.Pairwise.nil
  | case3 => exact List.Pairwise.nil
  | case4 bound start hlt stop hstop ih =>
      have hgroup := isGroup_of_groupEnd (by omega) hstart hstop
      rw [Trail.toList, List.pairwise_cons]
      exact ⟨fun h hh => (isGroup_of_mem_groupsFrom hgroup.ends hh).2, ih hgroup.ends⟩

theorem boundary_zero : Boundary clauses side t 0 := fun h => absurd h (Nat.lt_irrefl 0)

theorem isGroup_of_mem_groups {g : Group} (hg : g ∈ (groups clauses side t).toList) :
    IsGroup clauses side t g :=
  (isGroup_of_mem_groupsFrom boundary_zero hg).1

theorem groups_pairwise :
    (groups clauses side t).toList.Pairwise fun g h => g.stop ≤ h.first :=
  groupsFrom_pairwise boundary_zero

/-! ## Tiles on which all keys can be computed -/

namespace HasKeys

theorem sameKey_self (h : HasKeys clauses side t) {i : Nat} (hi : i < t.rowCount) :
    sameKey clauses side (t.row i) side (t.row i) = true :=
  (sameKey_iff_compareKeys h h hi hi).2 Std.ReflCmp.compare_self

theorem sameKey_of_mem_rows (h : HasKeys clauses side t) {g : Group}
    (hg : IsGroup clauses side t g) {i k : Nat} (hi : i ∈ g.rows) (hk : k ∈ g.rows) :
    sameKey clauses side (t.row i) side (t.row k) = true := by
  rw [Group.mem_rows] at hi hk
  have hstop := hg.stop_le
  rcases Nat.lt_trichotomy i k with hlt | rfl | hlt
  · exact hg.sameKey_of_lt hi.1 hlt hk.2
  · exact h.sameKey_self (by omega)
  · exact sameKey_symm (hg.sameKey_of_lt hk.1 hlt hi.2)

theorem groupEndFrom_ok (h : HasKeys clauses side t) {remaining row : Nat} (hrow : 0 < row)
    (hle : row + remaining ≤ t.rowCount) :
    ∃ stop, groupEndFrom clauses side t remaining row = .ok stop := by
  fun_induction groupEndFrom clauses side t remaining row with
  | case1 row => exact ⟨row, rfl⟩
  | case2 remaining row e he =>
      rw [h.keyOrder_eq (by omega) (by omega)] at he
      cases he
  | case3 remaining row heq ih => exact ih (by omega) (by omega)
  | case4 remaining row => exact ⟨row, rfl⟩

theorem groupEnd_ok (h : HasKeys clauses side t) (start : Nat) :
    ∃ stop, groupEnd clauses side t start = .ok stop := by
  rw [groupEnd]
  split
  · exact ⟨start, rfl⟩
  · exact h.groupEndFrom_ok (by omega) (by omega)

/-- A walk with room for all rows ends without an error and covers the rows in order. -/
theorem groupsFrom_covers (h : HasKeys clauses side t) {bound start : Nat}
    (hstart : start ≤ t.rowCount) (hbound : t.rowCount ≤ start + bound) :
    (groupsFrom clauses side t bound start).ending = none ∧
      (groupsFrom clauses side t bound start).toList.flatMap Group.rows
        = List.range' start (t.rowCount - start) := by
  fun_induction groupsFrom clauses side t bound start with
  | case1 start =>
      have : t.rowCount - start = 0 := by omega
      simp [Trail.ending, Trail.toList, this]
  | case2 bound start hle =>
      have : t.rowCount - start = 0 := by omega
      simp [Trail.ending, Trail.toList, this]
  | case3 bound start hlt e he =>
      obtain ⟨stop, hstop⟩ := h.groupEnd_ok start
      rw [hstop] at he
      cases he
  | case4 bound start hlt stop hstop ih =>
      obtain ⟨hne, hle⟩ := lt_groupEnd (by omega) hstop
      obtain ⟨hending, hrows⟩ := ih hle (by omega)
      refine ⟨hending, ?_⟩
      -- the group takes the rows before its end, the rest of the walk those from there on
      rw [Trail.toList, List.flatMap_cons, hrows, Group.rows, Group.size]
      have hsplit := @List.range'_append_1 start (stop - start) (t.rowCount - stop)
      rw [show start + (stop - start) = stop by omega] at hsplit
      rw [hsplit]
      congr 1
      omega

theorem groups_ending (h : HasKeys clauses side t) : (groups clauses side t).ending = none :=
  (h.groupsFrom_covers (Nat.zero_le _) (by omega)).1

/-- The groups cover every row of the tile once and in order. -/
theorem groups_rows (h : HasKeys clauses side t) :
    (groups clauses side t).toList.flatMap Group.rows = List.range t.rowCount := by
  rw [List.range_eq_range']
  exact (h.groupsFrom_covers (Nat.zero_le _) (by omega)).2

theorem exists_group (h : HasKeys clauses side t) {i : Nat} (hi : i < t.rowCount) :
    ∃ g ∈ (groups clauses side t).toList, i ∈ g.rows := by
  rw [← List.mem_flatMap, h.groups_rows]
  exact List.mem_range.2 hi

end HasKeys

/-! ## Sorted tiles -/

/-- In a sorted tile every key before a boundary is below every key after it. -/
theorem Boundary.compareKeys_lt (hkeys : HasKeys clauses side t)
    (hsorted : SortedOn clauses side t) {b : Nat} (hb : Boundary clauses side t b) {i k : Nat}
    (hi : i < b) (hk : b ≤ k) (hlt : k < t.rowCount) :
    compareKeys (t.keyAt clauses side i) (t.keyAt clauses side k) = .lt := by
  obtain ⟨o, ho, hne⟩ := hb (by omega) (by omega)
  have hstep := hsorted (b - 1) (by omega)
  rw [show b - 1 + 1 = b by omega, ho] at hstep
  rw [hkeys.keyOrder_eq (by omega) (by omega)] at ho
  have hat : compareKeys (t.keyAt clauses side (b - 1)) (t.keyAt clauses side b) = .lt := by
    rw [Except.ok.inj ho]
    cases o with
    | lt => rfl
    | eq => exact absurd rfl hne
    | gt => exact absurd rfl hstep
  have hbefore := hsorted.keyAt_isLE hkeys (show i ≤ b - 1 by omega) (by omega)
  have hafter := hsorted.keyAt_isLE hkeys hk hlt
  exact Std.TransCmp.lt_of_lt_of_isLE (Std.TransCmp.lt_of_isLE_of_lt hbefore hat) hafter

/-- In a sorted tile the keys of the groups increase strictly. -/
theorem groups_keyAt_pairwise (hkeys : HasKeys clauses side t) (hsorted : SortedOn clauses side t) :
    (groups clauses side t).toList.Pairwise fun g h =>
      compareKeys (t.keyAt clauses side g.first) (t.keyAt clauses side h.first) = .lt := by
  refine List.Pairwise.imp_of_mem (fun {g h} hg hh hle => ?_) groups_pairwise
  have hgroup := isGroup_of_mem_groups hg
  have hlt := (isGroup_of_mem_groups hh).first_lt_rowCount
  exact hgroup.ends.compareKeys_lt hkeys hsorted hgroup.first_lt_stop hle hlt

/-- The first row of the tile that has the key of row `i`; in a sorted tile it is the first row of
    the group of `i`. -/
def firstWithKey (clauses : List Clause) (side : Side) (t : Tile) (i : Nat) : Nat :=
  ((List.range t.rowCount).find? fun k => sameKey clauses side (t.row k) side (t.row i)).getD i

theorem HasKeys.sameKey_firstWithKey (h : HasKeys clauses side t) {i : Nat} (hi : i < t.rowCount) :
    sameKey clauses side (t.row (firstWithKey clauses side t i)) side (t.row i) = true := by
  rw [firstWithKey]
  cases hfind : (List.range t.rowCount).find? fun k =>
      sameKey clauses side (t.row k) side (t.row i) with
  | none => exact absurd (h.sameKey_self hi) (List.find?_eq_none.1 hfind i (List.mem_range.2 hi))
  | some k =>
      have hsame := List.find?_some hfind
      exact hsame

theorem IsGroup.firstWithKey_eq {g : Group} (hg : IsGroup clauses side t g)
    (hkeys : HasKeys clauses side t) (hsorted : SortedOn clauses side t) {i : Nat}
    (hi : i ∈ g.rows) : firstWithKey clauses side t i = g.first := by
  have hrange := Group.mem_rows.1 hi
  have hfirst := hg.first_lt_stop
  have hstop := hg.stop_le
  have hsame := hkeys.sameKey_of_mem_rows hg hg.first_mem_rows hi
  have hfind : (List.range t.rowCount).find? (fun k =>
      sameKey clauses side (t.row k) side (t.row i)) = some g.first := by
    rw [List.find?_range_eq_some]
    refine ⟨hsame, by simp; omega, fun k hk => ?_⟩
    -- rows before the group have smaller keys, since the group starts at a boundary
    have hlt := hg.starts.compareKeys_lt hkeys hsorted hk hrange.1 (by omega)
    rw [Bool.not_eq_true', ← Bool.not_eq_true,
      sameKey_iff_compareKeys hkeys hkeys (by omega) (by omega), hlt]
    decide
  rw [firstWithKey, hfind]
  rfl

end SortMerge

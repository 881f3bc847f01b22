import SortMerge.Proofs.Lists
import SortMerge.Tile

set_option autoImplicit false

/-! # Where a tile has values

An accepted tile points at nothing but rows of its batches. A batch counts its rows by its first
column, though, and the check of a tile does not ask whether the other columns are as long. So a
cell of an accepted tile is empty if its position is past the end of the column that it shows. Such
gaps take a batch with uneven columns: there are none over batches that pass their own check. -/

namespace SortMerge.Tile

/-! ## Sound tiles

The check of a tile looks for the first fault, position lists before columns. A tile that passes it
is `Sound`: its lists are equally long, and each column resolves to a list of rows of its batch.
Values are then looked up through the column's position list alone. -/

/-- The position lists are equally long, and every column names one of them, a column of its batch,
    and through the list only rows of the batch. -/
structure Sound (t : Tile) : Prop where
  even : ∀ positions ∈ t.lists, positions.length = t.rowCount
  resolves : ∀ v ∈ t.columns, ∃ positions, t.lists[v.list]? = some positions ∧
    v.origin < v.base.columns.length ∧ ∀ p ∈ positions, p < v.base.rowCount

theorem listFault?_eq_none_iff (t : Tile) (positions : List Nat) (i : Nat) :
    t.listFault? (positions, i) = none ↔ positions.length = t.rowCount := by
  rw [listFault?]
  split
  · next h => simp [h]
  · next h => simp [h]

theorem columnFault?_eq_none_iff (t : Tile) (v : ColumnView) (i : Nat) :
    t.columnFault? (v, i) = none ↔ ∃ positions, t.lists[v.list]? = some positions ∧
      v.origin < v.base.columns.length ∧ ∀ p ∈ positions, p < v.base.rowCount := by
  simp only [columnFault?]
  split
  · next h => simp [h]
  · next positions h =>
      rw [h]
      split
      · next hle => simp [Nat.not_lt.2 hle]
      · next hlt => simp [Nat.not_le.1 hlt]

/-- The check accepts the sound tiles. -/
theorem check_eq_ok_iff (t : Tile) : t.check = .ok () ↔ t.Sound := by
  have hlists := findSome?_zipIdx_eq_none_iff t.lists t.listFault?_eq_none_iff
  have hcolumns := findSome?_zipIdx_eq_none_iff t.columns t.columnFault?_eq_none_iff
  have hfault : t.fault? = none ↔ t.Sound := by
    rw [fault?]
    -- columns are only looked at once all position lists are fine
    cases hl : t.lists.zipIdx.findSome? t.listFault? with
    | some e =>
        simp only [reduceCtorEq, false_iff]
        intro hsound
        rw [hlists.2 hsound.even] at hl
        cases hl
    | none => exact hcolumns.trans ⟨fun hr => ⟨hlists.1 hl, hr⟩, fun hsound => hsound.resolves⟩
  rw [← hfault, check]
  cases t.fault? <;> simp

theorem build?_eq_ok {columns : List ColumnView} {lists : List (List Nat)}
    (h : Sound ⟨columns, lists⟩) : build? columns lists = .ok ⟨columns, lists⟩ := by
  simp only [build?]
  rw [(check_eq_ok_iff _).2 h]
  rfl

/-! ### Looking up values -/

/-- The row of its batch that a column shows in the given row of the tile. -/
def position (t : Tile) (v : ColumnView) (row : Nat) : Option Nat := t.lists[v.list]?.bind (·[row]?)

theorem value_eq (t : Tile) (column row : Nat) :
    t.value column row = t.columns[column]?.bind fun v =>
      (t.position v row).bind fun p => v.base.columns[v.origin]?.bind fun c => c.values[p]? := by
  rw [value]
  split
  · next hcolumn => rw [hcolumn, Option.bind_none]
  · next v hcolumn =>
      rw [hcolumn, Option.bind_some, position]
      split
      · next hlist => rw [hlist, Option.bind_none, Option.bind_none]
      · next positions hlist =>
          rw [hlist, Option.bind_some]
          split
          · next hrow => rw [hrow, Option.bind_none]
          · next p hrow => rw [hrow, Option.bind_some]

theorem rowCount_eq_zero_of_lists {t : Tile} (h : t.lists = []) : t.rowCount = 0 := by
  rw [rowCount, h]

/-! ## Gaps -/

/-- Every cell of the tile has a value, and there are no values anywhere else. -/
def ResolvesEverywhere (t : Tile) : Prop :=
  ∀ c r, (t.value c r).isSome = true ↔ c < t.columnCount ∧ r < t.rowCount

/-- Every cell of the tile has a value, whatever is found outside of it. -/
def Full (t : Tile) : Prop :=
  ∀ c < t.columnCount, ∀ r < t.rowCount, (t.value c r).isSome = true

instance (t : Tile) : Decidable t.Full :=
  inferInstanceAs (Decidable (∀ c < t.columnCount, ∀ r < t.rowCount, (t.value c r).isSome = true))

/-- The cell shows a row that its batch has by its own count, but the column that it shows is too
    short for. -/
def IsGap (t : Tile) (c r : Nat) : Prop :=
  ∃ v p column, t.columns[c]? = some v ∧ t.position v r = some p ∧
    v.base.columns[v.origin]? = some column ∧ column.values.length ≤ p ∧ p < v.base.rowCount

variable {t : Tile} {c r : Nat}

/-! ### Cells of sound tiles -/

namespace Sound

theorem position_eq_none (h : t.Sound) (v : ColumnView) (hr : t.rowCount ≤ r) :
    t.position v r = none := by
  rw [position]
  cases hlist : t.lists[v.list]? with
  | none => rfl
  | some positions =>
      have hlength := h.even positions (List.mem_of_getElem? hlist)
      exact List.getElem?_eq_none (by omega)

/-- Inside the tile a value is looked up in a column that exists, at a row that the batch counts. -/
theorem exists_position (h : t.Sound) {v : ColumnView} (hv : t.columns[c]? = some v)
    (hr : r < t.rowCount) :
    ∃ p column, t.position v r = some p ∧ p < v.base.rowCount ∧
      v.base.columns[v.origin]? = some column ∧ t.value c r = column.values[p]? := by
  obtain ⟨positions, hlist, horigin, hrows⟩ := h.resolves v (List.mem_of_getElem? hv)
  have hlt : r < positions.length := by
    rw [h.even positions (List.mem_of_getElem? hlist)]
    exact hr
  have hposition : t.position v r = some positions[r] := by
    rw [position, hlist, Option.bind_some, List.getElem?_eq_getElem hlt]
  have hcolumn := List.getElem?_eq_getElem horigin
  refine ⟨positions[r], v.base.columns[v.origin], hposition, hrows _ (List.getElem_mem hlt),
    hcolumn, ?_⟩
  rw [value_eq, hv, Option.bind_some, hposition, Option.bind_some, hcolumn, Option.bind_some]

theorem value_eq_none_iff (h : t.Sound) (c r : Nat) :
    t.value c r = none ↔ t.columnCount ≤ c ∨ t.rowCount ≤ r ∨ t.IsGap c r := by
  cases hv : t.columns[c]? with
  | none =>
      have houtside : t.columnCount ≤ c := List.getElem?_eq_none_iff.1 hv
      rw [value_eq, hv]
      exact ⟨fun _ => .inl houtside, fun _ => rfl⟩
  | some v =>
      have hc : ¬ t.columnCount ≤ c := Nat.not_le.2 (List.getElem?_eq_some_iff.1 hv).1
      rcases Nat.lt_or_ge r t.rowCount with hr | hr
      · obtain ⟨p, column, hposition, hp, hcolumn, hvalue⟩ := h.exists_position hv hr
        rw [hvalue, List.getElem?_eq_none_iff]
        constructor
        · intro hshort
          exact .inr (.inr ⟨v, p, column, hv, hposition, hcolumn, hshort, hp⟩)
        · rintro (hc' | hr' | ⟨v', p', column', hv', hposition', hcolumn', hshort, _⟩)
          · exact absurd hc' hc
          · exact absurd hr' (Nat.not_le.2 hr)
          · cases hv.symm.trans hv'
            cases hposition.symm.trans hposition'
            cases hcolumn.symm.trans hcolumn'
            exact hshort
      · rw [value_eq, hv, Option.bind_some, h.position_eq_none v hr]
        exact ⟨fun _ => .inr (.inl hr), fun _ => rfl⟩

/-- Gaps are cells of the tile. -/
theorem lt_of_isGap (h : t.Sound) (hgap : t.IsGap c r) : c < t.columnCount ∧ r < t.rowCount := by
  obtain ⟨v, p, column, hv, hposition, -⟩ := hgap
  refine ⟨(List.getElem?_eq_some_iff.1 hv).1, ?_⟩
  rcases Nat.lt_or_ge r t.rowCount with hr | hr
  · exact hr
  · rw [h.position_eq_none v hr] at hposition
    cases hposition

theorem resolvesEverywhere_iff (h : t.Sound) : t.ResolvesEverywhere ↔ ∀ c r, ¬ t.IsGap c r := by
  constructor
  · intro hall c r hgap
    have hsome := (hall c r).2 (h.lt_of_isGap hgap)
    rw [(h.value_eq_none_iff c r).2 (.inr (.inr hgap))] at hsome
    cases hsome
  · intro hnone c r
    have hvalue := h.value_eq_none_iff c r
    rw [or_iff_left (hnone c r : ¬ t.IsGap c r)] at hvalue
    rw [Option.isSome_iff_ne_none, Ne, hvalue]
    omega

end Sound

/-! ### Accepted tiles -/

/-- A gap shows a column of a batch that is not even. -/
theorem check_base_of_isGap (hgap : t.IsGap c r) :
    ∃ v ∈ t.columns, v.base.check ≠ .ok () := by
  obtain ⟨v, p, column, hv, -, hcolumn, hshort, hp⟩ := hgap
  refine ⟨v, List.mem_of_getElem? hv, fun hcheck => ?_⟩
  have heven := v.base.check_eq_ok_iff.1 hcheck column (List.mem_of_getElem? hcolumn)
  omega

theorem sound_of_build? {columns : List ColumnView} {lists : List (List Nat)}
    (h : build? columns lists = .ok t) : t = ⟨columns, lists⟩ ∧ t.Sound := by
  simp only [build?] at h
  cases hcheck : check ⟨columns, lists⟩ with
  | error e =>
      rw [hcheck] at h
      cases h
  | ok u =>
      rw [hcheck] at h
      cases h
      exact ⟨rfl, (check_eq_ok_iff _).1 hcheck⟩

/-- In an accepted tile a value is missing exactly outside of the tile and in its gaps. So the tile
    resolves everywhere exactly if it has no gaps, and it has none if its batches are even. -/
theorem value_of_build? {columns : List ColumnView} {lists : List (List Nat)}
    (h : build? columns lists = .ok t) :
    (∀ c r, t.value c r = none ↔ t.columnCount ≤ c ∨ t.rowCount ≤ r ∨ t.IsGap c r) ∧
      (t.ResolvesEverywhere ↔ ∀ c r, ¬ t.IsGap c r) ∧
      ((∀ v ∈ columns, v.base.check = .ok ()) → t.ResolvesEverywhere) := by
  obtain ⟨rfl, hsound⟩ := sound_of_build? h
  refine ⟨hsound.value_eq_none_iff, hsound.resolvesEverywhere_iff, fun heven => ?_⟩
  refine hsound.resolvesEverywhere_iff.2 fun c r hgap => ?_
  obtain ⟨v, hv, hbase⟩ := check_base_of_isGap hgap
  exact hbase (heven v hv)

namespace Example

/-- The second column is shorter than the first one. -/
def uneven : Batch := ⟨[⟨"a", [.int64 1, .int64 2]⟩, ⟨"b", [.int64 3]⟩]⟩

/-- Both columns of the uneven batch, over one list of both rows. -/
def gapped : Tile := ⟨[⟨uneven, 0, 0⟩, ⟨uneven, 1, 0⟩], [[1, 0]]⟩

end Example

/-- The second row of the batch is missing in the short column, and all else is there. -/
theorem value_of_build?_gapped :
    build? Example.gapped.columns Example.gapped.lists = .ok Example.gapped ∧
      Example.gapped.IsGap 1 0 ∧ Example.gapped.value 1 0 = none ∧
      Example.gapped.value 0 0 = some (.int64 2) ∧ Example.gapped.value 1 1 = some (.int64 3) ∧
      ¬ Example.gapped.ResolvesEverywhere := by
  have hbuild : build? Example.gapped.columns Example.gapped.lists = .ok Example.gapped := rfl
  obtain ⟨hvalue, hresolves, -⟩ := value_of_build? hbuild
  have hgap : Example.gapped.IsGap 1 0 :=
    ⟨_, _, _, rfl, rfl, rfl, by decide, by decide⟩
  exact ⟨hbuild, hgap, (hvalue 1 0).2 (.inr (.inr hgap)), by decide, by decide,
    fun hall => hresolves.1 hall 1 0 hgap⟩

/-- Being accepted is not enough to resolve everywhere. -/
theorem not_resolvesEverywhere_of_build? :
    ¬ ∀ (columns : List ColumnView) (lists : List (List Nat)) (t : Tile),
      build? columns lists = .ok t → t.ResolvesEverywhere := by
  intro hall
  have hresolves := hall Example.gapped.columns Example.gapped.lists Example.gapped rfl
  have hsome : (Example.gapped.value 1 0).isSome = true := (hresolves 1 0).2 (by decide)
  have hnone : Example.gapped.value 1 0 = none := by decide
  rw [hnone] at hsome
  cases hsome

end SortMerge.Tile

import Mathlib.Data.List.Basic
import SortMerge.Proofs.Tile.Resolution

set_option autoImplicit false

/-! # Whole batches, copies and lines

A batch can be shown as a tile, and what a tile shows can be copied out into a batch. The tile of a
batch has one position list for each column, in which every row stands at its own place. The tile
that was copied may have had any lists: shared by columns, permuted, with rows repeated, or named by
no column. Copying out and wrapping the copy changes nothing that can be seen, provided that every
cell has a value. -/

namespace SortMerge.Tile

/-! ## Whole batches -/

/-- The tile that shows all of a batch, one list for each column. -/
def whole (b : Batch) : Tile :=
  ⟨(List.range b.columns.length).map fun c => ⟨b, c, c⟩,
    List.replicate b.columns.length (List.range b.rowCount)⟩

variable {b : Batch}

@[simp] theorem columnCount_whole (b : Batch) : (whole b).columnCount = b.columns.length := by
  simp [columnCount, whole]

theorem lists_whole_getElem? {c : Nat} (hc : c < b.columns.length) :
    (whole b).lists[c]? = some (List.range b.rowCount) := by
  simp [whole, hc]

@[simp] theorem rowCount_whole (b : Batch) : (whole b).rowCount = b.rowCount := by
  obtain ⟨columns⟩ := b
  cases columns with
  | nil => rfl
  | cons c cs => simp [rowCount, whole, List.replicate_succ]

theorem names_whole (b : Batch) :
    (whole b).columns.map ColumnView.name = b.columns.map Column.name := by
  apply List.ext_getElem?
  intro c
  by_cases hc : c < b.columns.length
  · simp [whole, ColumnView.name, hc]
  · simp [whole, hc]

theorem sound_whole (b : Batch) : (whole b).Sound := by
  constructor
  · intro positions hpositions
    rw [rowCount_whole, List.eq_of_mem_replicate hpositions, List.length_range]
  · intro v hv
    obtain ⟨c, hc, rfl⟩ := List.mem_map.1 hv
    rw [List.mem_range] at hc
    refine ⟨List.range b.rowCount, lists_whole_getElem? hc, hc, ?_⟩
    intro p hp
    exact List.mem_range.1 hp

/-- Whole batches are accepted as tiles if their columns are equally long, and only then. -/
theorem ofBatch?_eq_ok_iff {t : Tile} :
    ofBatch? b = .ok t ↔ b.check = .ok () ∧ t = whole b := by
  rw [ofBatch?]
  cases hcheck : b.check with
  | error e => simp
  | ok u =>
      have hbuild : build? (whole b).columns (whole b).lists = .ok (whole b) :=
        build?_eq_ok (sound_whole b)
      simp only [whole] at hbuild ⊢
      rw [hbuild, Except.ok.injEq, eq_comm]
      simp

/-- The value in a cell of a whole batch stands at the same place in the batch. -/
theorem value_whole (heven : b.check = .ok ()) (c r : Nat) :
    (whole b).value c r = b.columns[c]?.bind fun column => column.values[r]? := by
  rw [value_eq]
  by_cases hc : c < b.columns.length
  · have hlength := b.check_eq_ok_iff.1 heven _ (List.getElem_mem hc)
    have hcolumn : (whole b).columns[c]? = some ⟨b, c, c⟩ := by simp [whole, hc]
    rw [hcolumn, Option.bind_some, position, lists_whole_getElem? hc, Option.bind_some,
      List.getElem?_eq_getElem hc, Option.bind_some]
    by_cases hr : r < b.rowCount
    · simp [List.getElem?_range hr]
    · have hrange : (List.range b.rowCount)[r]? = none := by simp; omega
      rw [hrange, Option.bind_none, List.getElem?_eq_none (by omega)]
  · have hcolumn : (whole b).columns[c]? = none := by simp [whole]; omega
    rw [hcolumn, Option.bind_none, List.getElem?_eq_none (by omega), Option.bind_none]

/-! ## What can be seen of a tile -/

/-- The two tiles have columns of the same names, equally many rows, and the same values. -/
structure SameView (t t' : Tile) : Prop where
  names : t.columns.map ColumnView.name = t'.columns.map ColumnView.name
  rows : t.rowCount = t'.rowCount
  values : ∀ c r, t.value c r = t'.value c r

variable {t t' : Tile}

theorem SameView.columnCount_eq (h : t.SameView t') : t.columnCount = t'.columnCount := by
  have hlength := congrArg List.length h.names
  rwa [List.length_map, List.length_map] at hlength

theorem SameView.row_eq (h : t.SameView t') : t.row = t'.row := by
  funext i
  simp only [row, h.columnCount_eq, h.values]

/-! ## Copies -/

/-- What is copied out of a column. -/
def copiedValues (t : Tile) (c : Nat) : List Scalar :=
  (List.range t.rowCount).map fun r => (t.value c r).getD .null

theorem materialize_eq (t : Tile) :
    t.materialize
      = ⟨(t.columns.map ColumnView.name).zipIdx.map fun q => ⟨q.1, t.copiedValues q.2⟩⟩ := by
  rw [materialize, List.zipIdx_map, List.map_map]
  rfl

/-- A copy keeps nothing but what can be seen. -/
theorem SameView.materialize_eq (h : t.SameView t') : t.materialize = t'.materialize := by
  rw [Tile.materialize_eq, Tile.materialize_eq, h.names]
  simp only [copiedValues, h.rows, h.values]

theorem materialize_getElem? (t : Tile) (c : Nat) :
    t.materialize.columns[c]? = t.columns[c]?.map fun v => ⟨v.name, t.copiedValues c⟩ := by
  rw [Tile.materialize_eq]
  simp [List.getElem?_zipIdx, Option.map_map, Function.comp_def]

theorem rowCount_materialize (hcolumns : t.columns ≠ []) :
    t.materialize.rowCount = t.rowCount := by
  obtain ⟨v, vs, hv⟩ := List.exists_cons_of_ne_nil hcolumns
  simp [Tile.materialize_eq, Batch.rowCount, hv, copiedValues]

theorem check_materialize (hcolumns : t.columns ≠ []) : t.materialize.check = .ok () := by
  rw [Batch.check_eq_ok_iff, rowCount_materialize hcolumns, Tile.materialize_eq]
  intro column hcolumn
  obtain ⟨q, -, rfl⟩ := List.mem_map.1 hcolumn
  simp [copiedValues]

/-- What a tile needs so that its copy shows the same: it is accepted, it has columns, and every
    cell has a value. -/
structure Complete (t : Tile) : Prop where
  check : t.check = .ok ()
  columns : t.columns ≠ []
  full : t.Full

theorem Complete.sound (h : t.Complete) : t.Sound := (check_eq_ok_iff t).1 h.check

/-- The tile of a copy shows what the copied tile shows. -/
theorem Complete.sameView_copy (h : t.Complete) : t.SameView (whole t.materialize) := by
  constructor
  · rw [names_whole, Tile.materialize_eq]
    simp [List.map_map, Function.comp_def]
  · rw [rowCount_whole, rowCount_materialize h.columns]
  · intro c r
    rw [value_whole (check_materialize h.columns), materialize_getElem?]
    by_cases hc : c < t.columnCount
    · rw [List.getElem?_eq_getElem hc, Option.map_some, Option.bind_some, copiedValues]
      by_cases hr : r < t.rowCount
      · obtain ⟨value, hvalue⟩ := Option.isSome_iff_exists.1 (h.full c hc r hr)
        simp [hr, hvalue]
      · have hnone := (h.sound.value_eq_none_iff c r).2 (.inr (.inl (Nat.le_of_not_lt hr)))
        simp [hnone, hr]
    · have hnone := (h.sound.value_eq_none_iff c r).2 (.inl (Nat.le_of_not_lt hc))
      rw [hnone, List.getElem?_eq_none (Nat.le_of_not_lt hc)]
      rfl

end SortMerge.Tile

/-! ## Lines

The lines of a tile are what it shows without the names of its columns: the values side by side, row
after row. A tile that holds all rows of some others is one whose lines are theirs, one tile after
the other. There is such a tile for any full tiles with the same columns: copy out the columns of
all of them, put the copies of each column behind one another, and show the batch. -/

namespace SortMerge

/-- The values of a row, in the order of the columns. -/
abbrev Line := List (Option Scalar)

namespace Tile

def line (t : Tile) (i : Nat) : Line := (List.range t.columnCount).map fun c => t.value c i

/-- All that a tile shows but the names of its columns. -/
def lines (t : Tile) : List Line := (List.range t.rowCount).map t.line

variable {t : Tile} {ts : List Tile} {names : List String}

theorem mem_lines {l : Line} : l ∈ t.lines ↔ ∃ i < t.rowCount, t.line i = l := by
  simp [lines]

@[simp] theorem length_line (t : Tile) (i : Nat) : (t.line i).length = t.columnCount := by
  simp [line]

@[simp] theorem length_lines (t : Tile) : t.lines.length = t.rowCount := by
  simp [lines]

/-! ### One tile for many -/

/-- The tile has columns of the given names and the rows of all the given tiles, in their order. -/
structure Gathers (t : Tile) (names : List String) (ts : List Tile) : Prop where
  check : t.check = .ok ()
  names : t.columns.map ColumnView.name = names
  lines : t.lines = ts.flatMap Tile.lines

/-- The copies of all columns, those of each column behind one another. -/
def stacked (names : List String) (ts : List Tile) : Batch :=
  ⟨names.zipIdx.map fun q => ⟨q.1, ts.flatMap fun t => t.copiedValues q.2⟩⟩

theorem stacked_getElem? (names : List String) (ts : List Tile) (c : Nat) :
    (stacked names ts).columns[c]?
      = names[c]?.map fun name => ⟨name, ts.flatMap fun t => t.copiedValues c⟩ := by
  simp [stacked, List.getElem?_zipIdx, Option.map_map, Function.comp_def]

theorem length_flatMap_copiedValues (ts : List Tile) (c : Nat) :
    (ts.flatMap fun t => t.copiedValues c).length = (ts.flatMap Tile.lines).length := by
  simp [List.length_flatMap, copiedValues]

theorem rowCount_stacked (hnames : names ≠ []) :
    (stacked names ts).rowCount = (ts.flatMap Tile.lines).length := by
  obtain ⟨name, rest, rfl⟩ := List.exists_cons_of_ne_nil hnames
  rw [← length_flatMap_copiedValues ts 0]
  rfl

theorem check_stacked (hnames : names ≠ []) : (stacked names ts).check = .ok () := by
  rw [Batch.check_eq_ok_iff, rowCount_stacked hnames]
  intro column hcolumn
  obtain ⟨q, -, rfl⟩ := List.mem_map.1 hcolumn
  exact length_flatMap_copiedValues ts q.2

/-- The copy of a column of a full tile is that column of its lines. -/
theorem map_some_copiedValues (hfull : t.Full) {c : Nat} (hc : c < t.columnCount) :
    (t.copiedValues c).map some = t.lines.map fun l => l[c]?.join := by
  rw [copiedValues, lines, List.map_map, List.map_map]
  refine List.map_congr_left fun i hi => ?_
  obtain ⟨v, hv⟩ := Option.isSome_iff_exists.1 (hfull c hc i (List.mem_range.1 hi))
  simp [line, hc, hv]

theorem length_of_mem_flatMap_lines (hcount : ∀ t ∈ ts, t.columnCount = names.length) {l : Line}
    (hl : l ∈ ts.flatMap Tile.lines) : l.length = names.length := by
  obtain ⟨t, ht, hl⟩ := List.mem_flatMap.1 hl
  obtain ⟨i, -, rfl⟩ := mem_lines.1 hl
  rw [length_line, hcount t ht]

/-- The tile of the stacked copies holds the rows of all tiles. -/
theorem gathers_stacked (hnames : names ≠ []) (hfull : ∀ t ∈ ts, t.Full)
    (hcount : ∀ t ∈ ts, t.columnCount = names.length) :
    (whole (stacked names ts)).Gathers names ts := by
  have hwidth : (whole (stacked names ts)).columnCount = names.length := by simp [stacked]
  have hheight : (whole (stacked names ts)).rowCount = (ts.flatMap Tile.lines).length := by
    rw [rowCount_whole, rowCount_stacked hnames]
  refine ⟨(check_eq_ok_iff _).2 (sound_whole _), ?_, ?_⟩
  · rw [names_whole, stacked]
    simp [List.map_map, Function.comp_def]
  · refine List.ext_getElem (by rw [length_lines, hheight]) fun i hi hi' => ?_
    have hline := length_of_mem_flatMap_lines hcount (List.getElem_mem hi')
    rw [show (whole (stacked names ts)).lines[i] = (whole (stacked names ts)).line i by
      simp [lines]]
    refine List.ext_getElem (by rw [length_line, hwidth, hline]) fun c hc hc' => ?_
    have hlt : c < names.length := hline ▸ hc'
    -- the column of all lines is what was copied out of the tiles
    have hcopied : (ts.flatMap fun t => t.copiedValues c).map some
        = (ts.flatMap Tile.lines).map fun l => l[c]?.join := by
      rw [List.map_flatMap, List.map_flatMap]
      refine List.flatMap_congr fun t ht => ?_
      exact map_some_copiedValues (hfull t ht) (by rw [hcount t ht]; exact hlt)
    have hcell := congrArg (·[i]?) hcopied
    simp only [List.getElem?_map, List.getElem?_eq_getElem hi', List.getElem?_eq_getElem hc',
      Option.map_some, Option.join_some] at hcell
    obtain ⟨v, hv, hcell⟩ := Option.map_eq_some_iff.1 hcell
    rw [← hcell]
    simp [line, value_whole (check_stacked hnames), stacked_getElem?, hlt, hv]

end Tile

end SortMerge

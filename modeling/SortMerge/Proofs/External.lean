import SortMerge.External
import SortMerge.Proofs.Join.Lines
import SortMerge.Proofs.Operator.Found

set_option autoImplicit false

/-! # External rows through a join

External rows become columns, a batch and a tile; tiles are joined, and the rows of the output are
read off as data again. On the way nothing is moved to another column or another row: a row of the
output is a left row and then a right row, each datum as it comes back from having been read under
the tag of its column. That goes for data of the wrong shape and for unknown tags too, which come
back as null. -/

namespace SortMerge

/-- The scalars of a row. -/
def Datum.readRow (tags : List Nat) (row : List Datum) : List Scalar :=
  List.zipWith Datum.toScalar tags row

/-- A row after it was read and written again. -/
def Datum.echoRow (tags : List Nat) (row : List Datum) : List Datum :=
  List.zipWith (fun tag d => Datum.ofScalar (d.toScalar tag)) tags row

theorem Datum.map_ofScalar_readRow (tags : List Nat) (row : List Datum) :
    (readRow tags row).map ofScalar = echoRow tags row :=
  List.map_zipWith

/-! ## Rows to columns -/

/-- The row has more or fewer values than there are columns, and is the first one of that kind. -/
structure IsFirstMisfit (width : Nat) (rows : List (List Datum)) (i : Nat) (row : List Datum) :
    Prop where
  here : rows[i]? = some row
  misfit : row.length ≠ width
  first : ∀ k < i, ∀ row', rows[k]? = some row' → row'.length = width

namespace Batch

/-- The columns of some rows, whatever their widths. -/
def transposed (names : List String) (tags : List Nat) (rows : List (List Datum)) : Batch :=
  ⟨(names.zip tags).zipIdx.map (externalColumn rows)⟩

variable {names : List String} {tags : List Nat} {rows : List (List Datum)}

/-- Rows of the right width make a batch, and otherwise the first one that has another width is
    reported. -/
theorem ofExternal_cases (rows : List (List Datum)) (hnames : names.length = tags.length) :
    ((∀ row ∈ rows, row.length = tags.length) ∧
        ofExternal names tags rows = .ok (transposed names tags rows)) ∨
      ∃ i row, IsFirstMisfit tags.length rows i row ∧
        ofExternal names tags rows = .error (.rowWidth i row.length tags.length) := by
  rw [ofExternal, if_neg (by simpa using hnames)]
  cases hfind : rows.zipIdx.find? fun r => r.1.length != tags.length with
  | none =>
      refine .inl ⟨fun row hrow => ?_, rfl⟩
      obtain ⟨i, hi, rfl⟩ := List.mem_iff_getElem.1 hrow
      have hfits := List.find?_eq_none.1 hfind (rows[i], i)
        (List.mk_mem_zipIdx_iff_getElem?.2 (List.getElem?_eq_getElem hi))
      simpa using hfits
  | some q =>
      obtain ⟨row, i⟩ := q
      obtain ⟨hmisfit, k, hk, hat, hbefore⟩ := List.find?_eq_some_iff_getElem.1 hfind
      rw [List.getElem_zipIdx, Prod.mk.injEq, Nat.zero_add] at hat
      obtain ⟨hrow, rfl⟩ := hat
      rw [List.length_zipIdx] at hk
      refine .inr ⟨k, row, ⟨?_, by simpa using hmisfit, ?_⟩, rfl⟩
      · rw [List.getElem?_eq_getElem hk, hrow]
      · intro k' hk' row' hrow'
        obtain ⟨hlt, rfl⟩ := List.getElem?_eq_some_iff.1 hrow'
        simpa using hbefore k' hk'

theorem length_transposed (hnames : names.length = tags.length) :
    (transposed names tags rows).columns.length = tags.length := by
  simp [transposed, hnames]

theorem transposed_getElem? (rows : List (List Datum)) (hnames : names.length = tags.length)
    {c : Nat} (hc : c < tags.length) :
    ∃ name, (transposed names tags rows).columns[c]?
      = some ⟨name, rows.map fun row => (row.getD c .null).toScalar tags[c]⟩ := by
  have hc' : c < names.length := hnames ▸ hc
  exact ⟨names[c], by simp [transposed, externalColumn, hc, hc']⟩

theorem length_of_mem_transposed {column : Column}
    (h : column ∈ (transposed names tags rows).columns) : column.values.length = rows.length := by
  obtain ⟨q, -, rfl⟩ := List.mem_map.1 h
  simp [externalColumn]

/-- As soon as there are columns, the first one has a value for each row. -/
theorem rowCount_of_mem_transposed {column : Column}
    (h : column ∈ (transposed names tags rows).columns) :
    (transposed names tags rows).rowCount = rows.length := by
  rw [rowCount]
  split
  · next hnil =>
      rw [hnil] at h
      cases h
  · next first rest hcons =>
      have hmem : first ∈ (transposed names tags rows).columns := by
        rw [hcons]
        exact List.mem_cons_self
      exact length_of_mem_transposed hmem

theorem rowCount_transposed (hnames : names.length = tags.length) (htags : tags ≠ []) :
    (transposed names tags rows).rowCount = rows.length := by
  obtain ⟨name, hcolumn⟩ := transposed_getElem? rows hnames (List.length_pos_iff.2 htags)
  exact rowCount_of_mem_transposed (List.mem_of_getElem? hcolumn)

theorem check_transposed : (transposed names tags rows).check = .ok () := by
  rw [check_eq_ok_iff]
  intro column hcolumn
  rw [length_of_mem_transposed hcolumn, rowCount_of_mem_transposed hcolumn]

end Batch

/-! ## Columns to rows -/

namespace Tile

variable {names : List String} {tags : List Nat} {rows : List (List Datum)}

/-- A row of the tile of external rows shows the scalars of the external row at its place. -/
theorem line_transposed (hnames : names.length = tags.length) {i : Nat} {row : List Datum}
    (hrow : rows[i]? = some row) (hwidth : row.length = tags.length) :
    (whole (Batch.transposed names tags rows)).line i = (Datum.readRow tags row).map some := by
  have hlength : (Datum.readRow tags row).length = tags.length := by
    simp [Datum.readRow, hwidth]
  refine List.ext_getElem (by simp [Batch.length_transposed hnames, hlength]) fun c _ hc => ?_
  rw [List.length_map, hlength] at hc
  obtain ⟨name, hcolumn⟩ := Batch.transposed_getElem? rows hnames hc
  have hc' : c < row.length := hwidth ▸ hc
  simp [line, value_whole Batch.check_transposed, hcolumn, hrow, hc', Datum.readRow]

/-- A row that shows scalars is the data of these scalars. -/
theorem rowToExternal_of_line {t : Tile} {i : Nat} {values : List Scalar}
    (h : t.line i = values.map some) : t.rowToExternal i = some (values.map Datum.ofScalar) := by
  have hline : t.rowToExternal i = (t.line i).mapM (Option.map Datum.ofScalar) := by
    rw [line, List.mapM_map]
    rfl
  rw [hline, h, List.mapM_map]
  exact List.mapM_pure

end Tile

/-! ## Through a join -/

/-- An output tile shows the pairs of rows that the merge emitted. -/
theorem Join.showsPairs_of_outcome {j : Join} {left right t : Tile}
    (h : j.outcome left right = .ok (some t)) :
    t.ShowsPairs left right (emittedPairs (j.plan.merge j.params left right).toList) := by
  rcases j.joinPair_cases left right {} with ⟨e, -, hjoin⟩ | ⟨e, -, -, hjoin⟩ |
    ⟨hcheck, hending, -⟩
  · rw [outcome, hjoin] at h
    cases h
  · rw [outcome, hjoin] at h
    cases h
  · rcases outcome_of_ending_none hcheck hending with ⟨-, hnone⟩ | ⟨-, t', hsome, -, hshows⟩
    · rw [hnone] at h
      cases h
    · rw [hsome] at h
      cases h
      exact hshows

/-- The tile shows the batch that external rows make under the given names and tags. -/
def Tile.ShowsExternal (t : Tile) (names : List String) (tags : List Nat)
    (rows : List (List Datum)) : Prop :=
  ∃ b, Batch.ofExternal names tags rows = .ok b ∧ Tile.ofBatch? b = .ok t

/-- Each of its rows shows the scalars of an external row. -/
theorem Tile.ShowsExternal.line_eq {t : Tile} {names : List String} {tags : List Nat}
    {rows : List (List Datum)} (h : t.ShowsExternal names tags rows) {i : Nat}
    (hi : i < t.rowCount) :
    ∃ row, rows[i]? = some row ∧ t.line i = (Datum.readRow tags row).map some := by
  obtain ⟨b, hb, ht⟩ := h
  obtain ⟨-, rfl⟩ := ofBatch?_eq_ok_iff.1 ht
  have hnames : names.length = tags.length := by
    by_contra hne
    rw [Batch.ofExternal, if_pos hne] at hb
    cases hb
  rcases Batch.ofExternal_cases rows hnames with ⟨hwidths, hok⟩ | ⟨k, row, -, herror⟩
  · rw [hb, Except.ok.injEq] at hok
    subst hok
    rw [rowCount_whole] at hi
    have htags : tags ≠ [] := by
      rintro rfl
      cases List.length_eq_zero_iff.1 hnames
      exact absurd hi (Nat.not_lt_zero i)
    rw [Batch.rowCount_transposed hnames htags] at hi
    have hrow := List.getElem?_eq_getElem hi
    exact ⟨_, hrow, line_transposed hnames hrow (hwidths _ (List.mem_of_getElem? hrow))⟩
  · rw [hb] at herror
    cases herror

/-- External rows make a batch exactly if each of them has a value for every tag, and otherwise the
    first one that has not is reported. The batch is even and has a row for each external row. When
    two such batches are joined, whatever the join and the calls made on it, every row of a tile
    that is found comes from a left and a right row: it is these two external rows side by side,
    each datum as it comes back from having been read. -/
theorem external_rows_through_join :
    (∀ (names : List String) (tags : List Nat) (rows : List (List Datum)),
        names.length = tags.length → tags ≠ [] →
          ((∃ b, Batch.ofExternal names tags rows = .ok b) ↔
              ∀ row ∈ rows, row.length = tags.length) ∧
            ((∀ row ∈ rows, row.length = tags.length) ∨
              ∃ i row, IsFirstMisfit tags.length rows i row ∧
                Batch.ofExternal names tags rows = .error (.rowWidth i row.length tags.length)) ∧
            ∀ b, Batch.ofExternal names tags rows = .ok b →
              b.columns.length = tags.length ∧ b.rowCount = rows.length ∧
                ∀ column ∈ b.columns, column.values.length = rows.length) ∧
      ∀ (left right : Tile) (names names' : List String) (tags tags' : List Nat)
        (rows rows' : List (List Datum)), left.ShowsExternal names tags rows →
          right.ShowsExternal names' tags' rows' →
            ∀ (j : Join) (calls : List Call),
              ∀ t ∈ (Operator.ofSource (.join j (.scan [left]) (.scan [right]))).found calls,
                ∀ k < t.rowCount, ∃ l r row row',
                  (emittedPairs (j.plan.merge j.params left right).toList)[k]? = some (l, r) ∧
                    rows[l]? = some row ∧ rows'[r]? = some row' ∧
                    t.rowToExternal k
                      = some (Datum.echoRow tags row ++ Datum.echoRow tags' row') := by
  constructor
  · intro names tags rows hnames htags
    rcases Batch.ofExternal_cases rows hnames with
      ⟨hwidths, hok⟩ | ⟨i, row, hmisfit, herror⟩
    · refine ⟨⟨fun _ => hwidths, fun _ => ⟨_, hok⟩⟩, .inl hwidths, fun b hb => ?_⟩
      rw [hok, Except.ok.injEq] at hb
      subst hb
      exact ⟨Batch.length_transposed hnames, Batch.rowCount_transposed hnames htags,
        fun column hcolumn => Batch.length_of_mem_transposed hcolumn⟩
    · refine ⟨⟨?_, fun hwidths => ?_⟩, .inr ⟨i, row, hmisfit, herror⟩, fun b hb => ?_⟩
      · rintro ⟨b, hb⟩
        rw [herror] at hb
        cases hb
      · exact absurd (hwidths row (List.mem_of_getElem? hmisfit.here)) hmisfit.misfit
      · rw [herror] at hb
        cases hb
  · intro left right names names' tags tags' rows rows' hleft hright j calls t ht k hk
    have hout : .ok (some t) ∈ j.outcomes [left] [right] := mem_outcomes_of_mem_found ht
    have houtcome : j.outcome left right = .ok (some t) := (List.mem_singleton.1 hout).symm
    have hshows := Join.showsPairs_of_outcome houtcome
    rw [hshows.rows] at hk
    have hpair := List.getElem?_eq_getElem hk
    obtain ⟨hl, hr⟩ := mem_rowPairs.1 (mem_rowPairs_of_mem_emittedPairs (List.mem_of_getElem? hpair))
    obtain ⟨row, hrow, hline⟩ := hleft.line_eq hl
    obtain ⟨row', hrow', hline'⟩ := hright.line_eq hr
    refine ⟨_, _, row, row', hpair, hrow, hrow', ?_⟩
    have hvalues : t.line k = (Datum.readRow tags row ++ Datum.readRow tags' row').map some := by
      rw [hshows.line_eq hpair, hline, hline', List.map_append]
    rw [Tile.rowToExternal_of_line hvalues, List.map_append, Datum.map_ofScalar_readRow,
      Datum.map_ofScalar_readRow]

namespace Example

/-- A word that is too wide for its type, a buffer that is shorter than it says, and words under a
    tag that nobody knows. -/
def clients : List (List Datum) :=
  [[.word 0x100000001, .buffer [9, 0, 0, 0], .word 5], [.word 4, .null, .word 6]]

def bills : List (List Datum) :=
  [[.word 1, .word 250], [.word 1, .word 900], [.word 4, .word 15]]

def clientTile : Tile :=
  .whole (.transposed ["id", "name", "mark"] [23, 25, 9999] clients)

def billTile : Tile := .whole (.transposed ["client", "amount"] [23, 20] bills)

/-- Equal numbers whose first bill is above the parameter. -/
def billing : Join :=
  { plan :=
      { clauses := [.onColumns 0 0]
        predicate := some (.compare .gt (.column .right 1) (.param 0)) }
    config := { strictRightExhaustion := false }
    params := [.int64 100] }

end Example

/-- The first client comes back twice, with the low half of the number and with nulls, and the other
    one is dropped. -/
theorem external_rows_through_join_bills :
    (Example.clientTile.ShowsExternal ["id", "name", "mark"] [23, 25, 9999] Example.clients ∧
        Example.billTile.ShowsExternal ["client", "amount"] [23, 20] Example.bills) ∧
      ∃ t calls, t ∈ (Operator.ofSource (.join Example.billing (.scan [Example.clientTile])
          (.scan [Example.billTile]))).found calls ∧ t.rowCount = 2 ∧
        t.rowToExternal 1 = some [.word 1, .null, .null, .word 1, .word 900] := by
  have hclients : Example.clientTile.ShowsExternal ["id", "name", "mark"] [23, 25, 9999]
      Example.clients :=
    ⟨_, rfl, Tile.ofBatch?_eq_ok_iff.2 ⟨Batch.check_transposed, rfl⟩⟩
  have hbills : Example.billTile.ShowsExternal ["client", "amount"] [23, 20] Example.bills :=
    ⟨_, rfl, Tile.ofBatch?_eq_ok_iff.2 ⟨Batch.check_transposed, rfl⟩⟩
  have hsorted : SortedInputs Example.billing.plan Example.clientTile Example.billTile := by decide
  have hending : (Example.billing.plan.merge Example.billing.params Example.clientTile
      Example.billTile).ending = none := hsorted.ending_eq_none_iff.2 (by decide)
  have hpairs : emittedPairs (Example.billing.plan.merge Example.billing.params
      Example.clientTile Example.billTile).toList = [(0, 0), (0, 1)] :=
    (hsorted.emittedPairs_eq hending).trans (by decide)
  obtain ⟨t, houtcome⟩ : ∃ t, Example.billing.outcome Example.clientTile Example.billTile
      = .ok (some t) := by
    rw [Join.outcome, Join.joinPair_of_ending_none rfl hending, hpairs]
    exact ⟨_, rfl⟩
  have hdrain := Operator.drain_of_all_ok
    (Operator.joins_scans Example.billing [Example.clientTile] [Example.billTile])
    (by simp [Join.outcomes, houtcome])
  obtain ⟨calls, -, hfound⟩ := Operator.drain_eq_after (Operator.ofSource (.join Example.billing
    (.scan [Example.clientTile]) (.scan [Example.billTile])))
  have hmem : t ∈ (Operator.ofSource (.join Example.billing (.scan [Example.clientTile])
      (.scan [Example.billTile]))).found calls := by
    rw [hfound _ hdrain]
    simp [Join.outcomes, houtcome, outputTile?]
  have hrows : t.rowCount = 2 := by
    rw [(Join.showsPairs_of_outcome houtcome).rows, hpairs]
    rfl
  refine ⟨⟨hclients, hbills⟩, t, calls, hmem, hrows, ?_⟩
  obtain ⟨l, r, row, row', hpair, hrow, hrow', hexternal⟩ := external_rows_through_join.2 _ _ _ _ _
    _ _ _ hclients hbills Example.billing calls t hmem 1 (by omega)
  rw [hpairs] at hpair
  cases hpair
  cases hrow
  cases hrow'
  rw [hexternal]
  rfl

end SortMerge

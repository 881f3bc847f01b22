import Mathlib.Data.List.Sort
import SortMerge.Proofs.Join.Merge

set_option autoImplicit false

/-! # Merging is the nested-loop join

The plain join of two tiles looks at every pair of rows, the left row varying slowest, and keeps
those with equal keys on whose groups the predicate decides in favour. On sorted tiles merging emits
exactly these pairs in this order. Both lists are strictly increasing in the lexicographic order of
rows, so it is enough that they have the same members. -/

namespace SortMerge

/-! ## The plain join -/

/-- Every pair of a left and a right row, the left row varying slowest. -/
def rowPairs (left right : Tile) : List (Nat × Nat) :=
  (List.range left.rowCount).flatMap fun l => (List.range right.rowCount).map fun r => (l, r)

namespace Plan

/-- The outcome of the predicate on the first rows that have the keys of the given two rows. -/
def judge (p : Plan) (params : List Scalar) (left right : Tile) (q : Nat × Nat) :
    Except ExprError Bool :=
  p.accepts params (left.row (firstWithKey p.clauses .left left q.1))
    (right.row (firstWithKey p.clauses .right right q.2))

/-- The nested-loop join: the pairs of rows with equal keys that the predicate accepts. -/
def nestedLoop (p : Plan) (params : List Scalar) (left right : Tile) : List (Nat × Nat) :=
  (rowPairs left right).filter fun q =>
    sameKey p.clauses .left (left.row q.1) .right (right.row q.2)
      && decide (p.judge params left right q = .ok true)

/-- One pair of rows for each key that occurs on both sides: the first rows that have it. -/
def sharedKeys (p : Plan) (left right : Tile) : List (Nat × Nat) :=
  (rowPairs left right).filter fun q =>
    sameKey p.clauses .left (left.row q.1) .right (right.row q.2)
      && firstWithKey p.clauses .left left q.1 == q.1
      && firstWithKey p.clauses .right right q.2 == q.2

/-- The counts of the plain join: shared keys accepted and rejected, and pairs of rows. -/
def nestedLoopStats (p : Plan) (params : List Scalar) (left right : Tile) : PassStats :=
  { matched := ((p.sharedKeys left right).filter
      fun q => decide (p.judge params left right q = .ok true)).length
    discarded := ((p.sharedKeys left right).filter
      fun q => decide (p.judge params left right q = .ok false)).length
    emitted := (p.nestedLoop params left right).length }

end Plan

/-- What a merge expects of its inputs: a valid plan, keys that can be computed on every row, and
    tiles that are sorted on them. -/
structure SortedInputs (p : Plan) (left right : Tile) : Prop where
  valid : p.validate = .ok ()
  leftKeys : HasKeys p.clauses .left left
  rightKeys : HasKeys p.clauses .right right
  leftSorted : SortedOn p.clauses .left left
  rightSorted : SortedOn p.clauses .right right

instance (p : Plan) (left right : Tile) : Decidable (SortedInputs p left right) :=
  decidable_of_iff
    (p.validate = .ok () ∧ HasKeys p.clauses .left left ∧ HasKeys p.clauses .right right ∧
      SortedOn p.clauses .left left ∧ SortedOn p.clauses .right right)
    ⟨fun ⟨hv, hl, hr, hsl, hsr⟩ => ⟨hv, hl, hr, hsl, hsr⟩,
      fun h => ⟨h.valid, h.leftKeys, h.rightKeys, h.leftSorted, h.rightSorted⟩⟩

/-! ## The order of pairs of rows -/

/-- The lexicographic order of pairs of rows. -/
def RowOrder : Nat × Nat → Nat × Nat → Prop := Prod.Lex (· < ·) (· < ·)

instance : Std.Irrefl RowOrder where
  irrefl q h := by
    rw [RowOrder, Prod.lex_def] at h
    omega

instance : Std.Antisymm RowOrder where
  antisymm q q' h h' := by
    rw [RowOrder, Prod.lex_def] at h h'
    omega

theorem pairwise_rowOrder_product {ls rs : List Nat} (hls : ls.Pairwise (· < ·))
    (hrs : rs.Pairwise (· < ·)) :
    (ls.flatMap fun l => rs.map fun r => (l, r)).Pairwise RowOrder := by
  rw [List.pairwise_flatMap]
  refine ⟨fun l _ => ?_, hls.imp fun {l l'} hlt x hx y hy => ?_⟩
  · rw [List.pairwise_map]
    exact hrs.imp fun hlt => Prod.Lex.right l hlt
  · obtain ⟨r, _, rfl⟩ := List.mem_map.1 hx
    obtain ⟨r', _, rfl⟩ := List.mem_map.1 hy
    exact Prod.Lex.left r r' hlt

theorem rowPairs_pairwise (left right : Tile) : (rowPairs left right).Pairwise RowOrder :=
  pairwise_rowOrder_product List.pairwise_lt_range List.pairwise_lt_range

@[simp] theorem mem_rowPairs {left right : Tile} {q : Nat × Nat} :
    q ∈ rowPairs left right ↔ q.1 < left.rowCount ∧ q.2 < right.rowCount := by
  obtain ⟨l, r⟩ := q
  simp [rowPairs]

namespace Plan

variable {p : Plan} {params : List Scalar} {left right : Tile}

theorem nestedLoop_pairwise : (p.nestedLoop params left right).Pairwise RowOrder :=
  (rowPairs_pairwise left right).filter _

theorem sharedKeys_pairwise : (p.sharedKeys left right).Pairwise RowOrder :=
  (rowPairs_pairwise left right).filter _

theorem mem_nestedLoop {q : Nat × Nat} :
    q ∈ p.nestedLoop params left right ↔
      (q.1 < left.rowCount ∧ q.2 < right.rowCount) ∧
        sameKey p.clauses .left (left.row q.1) .right (right.row q.2) = true ∧
        p.judge params left right q = .ok true := by
  rw [nestedLoop, List.mem_filter, mem_rowPairs, Bool.and_eq_true, decide_eq_true_iff]

theorem mem_sharedKeys {q : Nat × Nat} :
    q ∈ p.sharedKeys left right ↔
      (q.1 < left.rowCount ∧ q.2 < right.rowCount) ∧
        (sameKey p.clauses .left (left.row q.1) .right (right.row q.2) = true ∧
          firstWithKey p.clauses .left left q.1 = q.1) ∧
        firstWithKey p.clauses .right right q.2 = q.2 := by
  rw [sharedKeys, List.mem_filter, mem_rowPairs, Bool.and_eq_true, Bool.and_eq_true, beq_iff_eq,
    beq_iff_eq]

end Plan

/-! ## Emitted pairs -/

/-- The first rows of the two groups of a match. -/
def Match.firsts (m : Match) : Nat × Nat := (m.left.first, m.right.first)

theorem Match.pairs_pairwise (m : Match) : m.pairs.Pairwise RowOrder :=
  pairwise_rowOrder_product List.pairwise_lt_range' List.pairwise_lt_range'

theorem Match.length_pairs (m : Match) : m.pairs.length = m.left.size * m.right.size := by
  simp [Match.pairs, List.length_flatMap]

theorem mem_emittedPairs {ms : List Match} {q : Nat × Nat} :
    q ∈ emittedPairs ms ↔ ∃ m ∈ ms, m.kept = true ∧ q.1 ∈ m.left.rows ∧ q.2 ∈ m.right.rows := by
  simp [emittedPairs, keptMatches, and_assoc]

/-- The pairs of successive matches are strictly increasing. -/
theorem emittedPairs_pairwise {ms : List Match}
    (h : ms.Pairwise fun m m' => m.left.stop ≤ m'.left.first) :
    (emittedPairs ms).Pairwise RowOrder := by
  rw [emittedPairs, List.pairwise_flatMap]
  -- all left rows of a match lie before those of a later one
  refine ⟨fun m _ => m.pairs_pairwise, (h.filter _).imp fun hle x hx y hy => ?_⟩
  rw [Match.mem_pairs, Group.mem_rows] at hx hy
  exact Prod.lex_def.2 (.inl (by omega))

theorem length_emittedPairs (ms : List Match) :
    (emittedPairs ms).length = (PassStats.ofMatches ms).emitted := by
  have hsizes : ∀ ms : List Match, (ms.flatMap Match.pairs).length = productSizes ms := by
    intro ms
    induction ms with
    | nil => rfl
    | cons m ms ih => rw [List.flatMap_cons, List.length_append, ih, m.length_pairs, productSizes]
  exact hsizes (keptMatches ms)

/-! ## Merging sorted tiles -/

/-- The pair of rows has equal keys, the match is about their groups, and its outcome is the
    outcome of the pair. -/
structure Match.Covers (p : Plan) (params : List Scalar) (left right : Tile) (m : Match)
    (q : Nat × Nat) : Prop where
  left_lt : q.1 < left.rowCount
  right_lt : q.2 < right.rowCount
  same : sameKey p.clauses .left (left.row q.1) .right (right.row q.2) = true
  left_first : firstWithKey p.clauses .left left q.1 = m.left.first
  right_first : firstWithKey p.clauses .right right q.2 = m.right.first
  judged : p.judge params left right q = .ok m.kept

section Sorted

variable {p : Plan} {params : List Scalar} {left right : Tile} (h : SortedInputs p left right)

/-- Matches come in order and do not overlap on either side. -/
theorem merge_pairwise :
    (p.merge params left right).toList.Pairwise fun m m' =>
      m.left.stop ≤ m'.left.first ∧ m.right.stop ≤ m'.right.first :=
  mergeGroups_pairwise groups_pairwise groups_pairwise

/-- Each match pairs a group of the left tile with a group of the right one. -/
theorem isMatch_of_mem_merge {m : Match} (hm : m ∈ (p.merge params left right).toList) :
    IsGroup p.clauses .left left m.left ∧ IsGroup p.clauses .right right m.right ∧
      IsMatch p params left right m := by
  obtain ⟨hl, hr, hmatch⟩ := isMatch_of_mem_mergeGroups hm
  exact ⟨isGroup_of_mem_groups hl, isGroup_of_mem_groups hr, hmatch⟩

/-- The rows of a match have equal keys, whatever the order of the tiles. -/
theorem sameKey_of_mem_pairs (hreads : ∀ c ∈ p.clauses, c.ReadsOwnSide) {m : Match}
    (hm : m ∈ (p.merge params left right).toList) {q : Nat × Nat} (hq : q ∈ m.pairs) :
    sameKey p.clauses .left (left.row q.1) .right (right.row q.2) = true := by
  obtain ⟨hleft, hright, hmatch⟩ := isMatch_of_mem_merge hm
  obtain ⟨hl, hr⟩ := Match.mem_pairs.1 hq
  have hfirsts := (pairOrder_eq_ok_eq_iff hreads _ _).1 hmatch.same
  -- first from the left group to all its rows, then from the right one
  have hrow := hleft.sameKey_of_first hfirsts hl
  exact sameKey_symm (hright.sameKey_of_first (sameKey_symm hrow) hr)

namespace SortedInputs

include h

theorem readsOwnSide : ∀ c ∈ p.clauses, c.ReadsOwnSide := ((Plan.validate_eq_ok_iff p).1 h.valid).2

/-- The keys of first rows increase along both walks and decide every comparison across them. -/
theorem orderedWalks :
    OrderedWalks p left right (fun g => left.keyAt p.clauses .left g.first)
      (fun g => right.keyAt p.clauses .right g.first) (groups p.clauses .left left).toList
      (groups p.clauses .right right).toList := by
  refine ⟨groups_keyAt_pairwise h.leftKeys h.leftSorted,
    groups_keyAt_pairwise h.rightKeys h.rightSorted, fun g hg k hk => ?_⟩
  exact HasKeys.pairOrder_eq h.readsOwnSide h.leftKeys h.rightKeys
    (isGroup_of_mem_groups hg).first_lt_rowCount (isGroup_of_mem_groups hk).first_lt_rowCount

/-- A match covers all pairs of its rows. -/
theorem covers_of_mem_rows {m : Match} (hm : m ∈ (p.merge params left right).toList) {l r : Nat}
    (hl : l ∈ m.left.rows) (hr : r ∈ m.right.rows) : m.Covers p params left right (l, r) := by
  obtain ⟨hleft, hright, hmatch⟩ := isMatch_of_mem_merge hm
  have hl' := hleft.firstWithKey_eq h.leftKeys h.leftSorted hl
  have hr' := hright.firstWithKey_eq h.rightKeys h.rightSorted hr
  have hsame := sameKey_of_mem_pairs h.readsOwnSide hm (q := (l, r)) (Match.mem_pairs.2 ⟨hl, hr⟩)
  have hlstop := hleft.stop_le
  have hrstop := hright.stop_le
  rw [Group.mem_rows] at hl hr
  refine ⟨by omega, by omega, hsame, hl', hr', ?_⟩
  rw [Plan.judge, hl', hr']
  exact hmatch.judged

theorem covers_firsts {m : Match} (hm : m ∈ (p.merge params left right).toList) :
    m.Covers p params left right m.firsts := by
  obtain ⟨hleft, hright, _⟩ := isMatch_of_mem_merge hm
  exact h.covers_of_mem_rows hm hleft.first_mem_rows hright.first_mem_rows

/-- Two rows with equal keys are in the groups of one match. -/
theorem exists_match (hok : (p.merge params left right).ending = none) {l r : Nat}
    (hl : l < left.rowCount) (hr : r < right.rowCount)
    (hsame : sameKey p.clauses .left (left.row l) .right (right.row r) = true) :
    ∃ m ∈ (p.merge params left right).toList, l ∈ m.left.rows ∧ r ∈ m.right.rows := by
  obtain ⟨g, hg, hlg⟩ := h.leftKeys.exists_group hl
  obtain ⟨k, hk, hrk⟩ := h.rightKeys.exists_group hr
  have hgroup := isGroup_of_mem_groups hg
  have hgroup' := isGroup_of_mem_groups hk
  have hfirsts := sameKey_trans (h.leftKeys.sameKey_of_mem_rows hgroup hgroup.first_mem_rows hlg)
    (sameKey_trans hsame (h.rightKeys.sameKey_of_mem_rows hgroup' hrk hgroup'.first_mem_rows))
  have hkeys := (sameKey_iff_compareKeys h.leftKeys h.rightKeys hgroup.first_lt_rowCount
    hgroup'.first_lt_rowCount).1 hfirsts
  obtain ⟨m, hm, rfl, rfl⟩ := exists_match_of_compareKeys_eq h.orderedWalks hok hg hk hkeys
  exact ⟨m, hm, hlg, hrk⟩

theorem emittedPairs_eq (hok : (p.merge params left right).ending = none) :
    emittedPairs (p.merge params left right).toList = p.nestedLoop params left right := by
  have hemitted : (emittedPairs (p.merge params left right).toList).Pairwise RowOrder :=
    emittedPairs_pairwise (merge_pairwise.imp And.left)
  refine hemitted.eq_of_mem_iff Plan.nestedLoop_pairwise fun q => ?_
  rw [mem_emittedPairs, Plan.mem_nestedLoop]
  constructor
  · rintro ⟨m, hm, hkept, hl, hr⟩
    have hcovers := h.covers_of_mem_rows hm hl hr
    refine ⟨⟨hcovers.left_lt, hcovers.right_lt⟩, hcovers.same, ?_⟩
    rw [hcovers.judged, hkept]
  · rintro ⟨⟨hl, hr⟩, hsame, hjudged⟩
    -- the match was not dropped: its outcome is that of this very pair of rows
    obtain ⟨m, hm, hlm, hrm⟩ := h.exists_match hok hl hr hsame
    have hkept := (h.covers_of_mem_rows hm hlm hrm).judged
    exact ⟨m, hm, Except.ok.inj (hkept.symm.trans hjudged), hlm, hrm⟩

/-- The first rows of the matches are the shared keys, each once and in order. -/
theorem map_firsts_eq (hok : (p.merge params left right).ending = none) :
    (p.merge params left right).toList.map Match.firsts = p.sharedKeys left right := by
  have hfirsts : ((p.merge params left right).toList.map Match.firsts).Pairwise RowOrder := by
    rw [List.pairwise_map]
    refine List.Pairwise.imp_of_mem (fun {m m'} hm _ hle => ?_) merge_pairwise
    have hlt := (isMatch_of_mem_merge hm).1.first_lt_stop
    exact Prod.Lex.left _ _ (Nat.lt_of_lt_of_le hlt hle.1)
  refine hfirsts.eq_of_mem_iff Plan.sharedKeys_pairwise fun q => ?_
  rw [List.mem_map, Plan.mem_sharedKeys]
  constructor
  · rintro ⟨m, hm, rfl⟩
    have hcovers := h.covers_firsts hm
    exact ⟨⟨hcovers.left_lt, hcovers.right_lt⟩, ⟨hcovers.same, hcovers.left_first⟩,
      hcovers.right_first⟩
  · rintro ⟨⟨hl, hr⟩, ⟨hsame, hfirstl⟩, hfirstr⟩
    obtain ⟨m, hm, hlm, hrm⟩ := h.exists_match hok hl hr hsame
    have hcovers := h.covers_of_mem_rows hm hlm hrm
    exact ⟨m, hm, Prod.ext (hcovers.left_first.symm.trans hfirstl)
      (hcovers.right_first.symm.trans hfirstr)⟩

/-- The matches with a given outcome are as many as the shared keys with it. -/
theorem length_filter_judge (hok : (p.merge params left right).ending = none) (kept : Bool) :
    ((p.sharedKeys left right).filter
        fun q => decide (p.judge params left right q = .ok kept)).length
      = ((p.merge params left right).toList.filter fun m => m.kept == kept).length := by
  rw [← h.map_firsts_eq hok, List.filter_map, List.length_map]
  refine congrArg List.length (List.filter_congr fun m hm => ?_)
  rw [Function.comp_apply, (h.covers_firsts hm).judged]
  simp [Bool.beq_eq_decide_eq]

theorem ofMatches_eq (hok : (p.merge params left right).ending = none) :
    PassStats.ofMatches (p.merge params left right).toList
      = p.nestedLoopStats params left right := by
  have hemitted := length_emittedPairs (p.merge params left right).toList
  rw [h.emittedPairs_eq hok] at hemitted
  have hmatched := h.length_filter_judge hok true
  have hdiscarded := h.length_filter_judge hok false
  simp only [Bool.beq_eq_decide_eq, Bool.decide_eq_true, Bool.decide_eq_false]
    at hmatched hdiscarded
  rw [Plan.nestedLoopStats, hemitted, hmatched, hdiscarded]
  rfl

/-- The merge ends well exactly if the predicate has an outcome on every shared key. -/
theorem ending_eq_none_iff :
    (p.merge params left right).ending = none ↔
      ∀ q ∈ p.sharedKeys left right, ∃ kept, p.judge params left right q = .ok kept := by
  constructor
  · intro hok q hq
    rw [← h.map_firsts_eq hok] at hq
    obtain ⟨m, hm, rfl⟩ := List.mem_map.1 hq
    exact ⟨m.kept, (h.covers_firsts hm).judged⟩
  · intro hjudged
    refine mergeGroups_ending_eq_none h.orderedWalks h.leftKeys.groups_ending
      h.rightKeys.groups_ending fun g hg k hk hkeys => ?_
    have hg := isGroup_of_mem_groups hg
    have hk := isGroup_of_mem_groups hk
    have hl := hg.firstWithKey_eq h.leftKeys h.leftSorted hg.first_mem_rows
    have hr := hk.firstWithKey_eq h.rightKeys h.rightSorted hk.first_mem_rows
    have hlt : g.first < left.rowCount ∧ k.first < right.rowCount :=
      ⟨hg.first_lt_rowCount, hk.first_lt_rowCount⟩
    have hsame := (sameKey_iff_compareKeys h.leftKeys h.rightKeys hlt.1 hlt.2).2 hkeys
    -- first rows of groups are the first rows that have their key, so the pair is a shared key
    obtain ⟨kept, hkept⟩ := hjudged (g.first, k.first)
      (Plan.mem_sharedKeys.2 ⟨hlt, ⟨hsame, hl⟩, hr⟩)
    rw [Plan.judge, hl, hr] at hkept
    exact ⟨kept, hkept⟩

end SortedInputs

end Sorted

/-! ## The equivalence -/

/-- Merging sorted tiles goes through exactly if the predicate has an outcome on every shared key.
    It then emits the pairs of the nested-loop join in their order, and counts the shared keys that
    it kept, those that it dropped, and the pairs. -/
theorem merge_eq_nestedLoop {p : Plan} (params : List Scalar) {left right : Tile}
    (h : SortedInputs p left right) :
    ((p.merge params left right).ending = none ↔
        ∀ q ∈ p.sharedKeys left right, ∃ kept, p.judge params left right q = .ok kept) ∧
      ((p.merge params left right).ending = none →
        emittedPairs (p.merge params left right).toList = p.nestedLoop params left right ∧
          PassStats.ofMatches (p.merge params left right).toList
            = p.nestedLoopStats params left right) :=
  ⟨h.ending_eq_none_iff, fun hok => ⟨h.emittedPairs_eq hok, h.ofMatches_eq hok⟩⟩

namespace Example

/-- A tile that shows all rows of the given columns through one position list. -/
def tile (columns : List (List Scalar)) (rows : Nat) : Tile :=
  let base : Batch := ⟨columns.map fun values => ⟨"", values⟩⟩
  ⟨(List.range columns.length).map fun c => ⟨base, c, 0⟩, [List.range rows]⟩

/-- Keys of two columns, then a quantity. -/
def stock : Tile :=
  tile [[.int64 1, .int64 1, .int64 2, .int64 2], [.null, .null, .bool true, .bool true],
    [.int16 5, .int16 0, .int16 0, .int16 7]] 4

/-- The same keys as numbers of other widths. -/
def orders : Tile :=
  tile [[.float64 0x3ff0000000000000, .int32 1, .int32 2, .int64 3],
    [.null, .null, .bool true, .null]] 4

/-- Equal keys whose quantity is above the parameter. -/
def plan : Plan :=
  { clauses := [.onColumns 0 0, .onColumns 1 1]
    predicate := some (.compare .gt (.column .left 2) (.param 0)) }

end Example

/-- Two rows on each side share a key and are kept; the first row of the other shared key has no
    stock, which drops the second one with it. -/
theorem merge_eq_nestedLoop_stock :
    SortedInputs Example.plan Example.stock Example.orders ∧
      (Example.plan.merge [.int16 0] Example.stock Example.orders).ending = none ∧
      emittedPairs (Example.plan.merge [.int16 0] Example.stock Example.orders).toList
        = [(0, 0), (0, 1), (1, 0), (1, 1)] ∧
      PassStats.ofMatches (Example.plan.merge [.int16 0] Example.stock Example.orders).toList
        = { matched := 1, discarded := 1, emitted := 4 } := by
  have hinputs : SortedInputs Example.plan Example.stock Example.orders := by decide
  obtain ⟨hending, hresult⟩ := merge_eq_nestedLoop [.int16 0] hinputs
  have hok := hending.2 (by decide)
  obtain ⟨hpairs, hstats⟩ := hresult hok
  exact ⟨hinputs, hok, hpairs.trans (by decide), hstats.trans (by decide)⟩

end SortMerge

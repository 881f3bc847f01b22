import SortMerge.Proofs.Expr.Agreement
import SortMerge.Proofs.Join.NestedLoop

set_option autoImplicit false

/-! # Predicates over key columns

A merge asks the predicate once for each pair of groups, about their first rows. If the clauses
compare columns and the predicate reads none but these, every pair of rows of the two groups gets
the answer that the first rows got: the keys compare equal, and evaluation respects that. Dropping
whole groups is then the same as looking at each pair of rows by itself. -/

namespace SortMerge

/-! ## Joins on columns -/

/-- The column of the side in a pair of a left and a right column. -/
def keyColumn (k : Nat × Nat) : Side → Nat
  | .left => k.1
  | .right => k.2

/-- The plan that matches left and right columns in pairs and filters by a predicate. -/
def Plan.onColumns (keys : List (Nat × Nat)) (e : Expr) : Plan :=
  { clauses := keys.map fun k => .onColumns k.1 k.2, predicate := some e }

/-- The expression reads no columns but those of the pairs, on either side. -/
def Expr.ReadsKeys (keys : List (Nat × Nat)) (e : Expr) : Prop :=
  ∀ c ∈ e.columns, ∃ k ∈ keys, c = (.left, k.1) ∨ c = (.right, k.2)

instance (keys : List (Nat × Nat)) (e : Expr) : Decidable (e.ReadsKeys keys) :=
  inferInstanceAs (Decidable (∀ c ∈ e.columns, ∃ k ∈ keys, c = (.left, k.1) ∨ c = (.right, k.2)))

/-- What a merge on pairs of columns expects of its inputs: at least one pair, columns that have a
    value in every row, and tiles that are sorted on them. -/
structure ColumnInputs (keys : List (Nat × Nat)) (left right : Tile) : Prop where
  nonempty : keys ≠ []
  leftValues : ∀ k ∈ keys, ∀ l < left.rowCount, (left.value k.1 l).isSome = true
  rightValues : ∀ k ∈ keys, ∀ r < right.rowCount, (right.value k.2 r).isSome = true
  leftSorted : SortedOn (keys.map fun k => .onColumns k.1 k.2) .left left
  rightSorted : SortedOn (keys.map fun k => .onColumns k.1 k.2) .right right

variable {keys : List (Nat × Nat)} {e : Expr} {params : List Scalar} {left right : Tile}

@[simp] theorem half_onColumns (k : Nat × Nat) (side : Side) :
    (Clause.onColumns k.1 k.2).half side = .column side (keyColumn k side) := by
  cases side <;> rfl

theorem readsOwnSide_onColumns (k : Nat × Nat) : (Clause.onColumns k.1 k.2).ReadsOwnSide := by
  intro side
  rw [half_onColumns]
  exact ⟨by simp [Expr.columns], rfl⟩

/-- The key of a row is the value in the column of its side. -/
theorem key_onColumns_eq_ok_iff {k : Nat × Nat} {side : Side} {a : Row} {v : Scalar} :
    (Clause.onColumns k.1 k.2).key side a = .ok v ↔ a.cell (keyColumn k side) = some v := by
  have hrow : (⟨a, a, []⟩ : Env).row side = a := by cases side <;> rfl
  rw [Clause.key, half_onColumns, Expr.eval, hrow]
  cases a.cell (keyColumn k side) <;> simp

/-- Rows with equal keys have values in every key column, and these compare equal. -/
theorem sameKey_onColumns_iff {s s' : Side} {a b : Row} :
    sameKey (keys.map fun k => .onColumns k.1 k.2) s a s' b = true ↔
      ∀ k ∈ keys, ∃ x y, a.cell (keyColumn k s) = some x ∧ b.cell (keyColumn k s') = some y ∧
        x.compare y = .eq := by
  simp only [sameKey_iff, List.forall_mem_map, key_onColumns_eq_ok_iff]

theorem ColumnInputs.sortedInputs (h : ColumnInputs keys left right) :
    SortedInputs (.onColumns keys e) left right := by
  refine ⟨?_, ?_, ?_, h.leftSorted, h.rightSorted⟩
  · rw [Plan.validate_eq_ok_iff]
    refine ⟨by simpa [Plan.onColumns] using h.nonempty, ?_⟩
    simp only [Plan.onColumns, List.forall_mem_map]
    exact fun k _ => readsOwnSide_onColumns k
  · intro l hl c hc
    obtain ⟨k, hk, rfl⟩ := List.mem_map.1 hc
    obtain ⟨v, hv⟩ := Option.isSome_iff_exists.1 (h.leftValues k hk l hl)
    exact ⟨v, key_onColumns_eq_ok_iff.2 hv⟩
  · intro r hr c hc
    obtain ⟨k, hk, rfl⟩ := List.mem_map.1 hc
    obtain ⟨v, hv⟩ := Option.isSome_iff_exists.1 (h.rightValues k hk r hr)
    exact ⟨v, key_onColumns_eq_ok_iff.2 hv⟩

/-! ## The predicate on rows with equal keys -/

namespace Plan

/-- The outcome of the predicate on a pair of rows themselves. -/
def judgeRows (p : Plan) (params : List Scalar) (left right : Tile) (q : Nat × Nat) :
    Except ExprError Bool :=
  p.accepts params (left.row q.1) (right.row q.2)

/-- The nested-loop join that asks the predicate about each pair of rows by itself. -/
def rowwiseLoop (p : Plan) (params : List Scalar) (left right : Tile) : List (Nat × Nat) :=
  (rowPairs left right).filter fun q =>
    sameKey p.clauses .left (left.row q.1) .right (right.row q.2)
      && decide (p.judgeRows params left right q = .ok true)

end Plan

/-- Rows with the same keys on both sides get one answer from a predicate over these keys. -/
theorem accepts_eq_ok_congr (he : e.ReadsKeys keys) {l l' r r' : Row}
    (hl : sameKey (keys.map fun k => .onColumns k.1 k.2) .left l .left l' = true)
    (hr : sameKey (keys.map fun k => .onColumns k.1 k.2) .right r .right r' = true) (kept : Bool) :
    (Plan.onColumns keys e).accepts params l r = .ok kept ↔
      (Plan.onColumns keys e).accepts params l' r' = .ok kept := by
  rw [sameKey_onColumns_iff] at hl hr
  have hcols : ∀ c ∈ e.columns, Expr.AgreeAt ⟨l, r, params⟩ ⟨l', r', params⟩ c := by
    intro c hc
    rcases he c hc with ⟨k, hk, rfl | rfl⟩
    · exact hl k hk
    · exact hr k hk
  have hparams : (⟨l, r, params⟩ : Env).params = (⟨l', r', params⟩ : Env).params := rfl
  have hagree := Expr.eval_agree hparams e hcols
  simp only [Plan.accepts, Plan.onColumns]
  rcases hagree with ⟨a, b, ha, hb, hab⟩ | ⟨err, err', ha, hb⟩
  · simp only [ha, hb, Scalar.isFalse_eq_of_compare_eq hab]
  · simp only [ha, hb, reduceCtorEq]

namespace ColumnInputs

variable (h : ColumnInputs keys left right) (he : e.ReadsKeys keys)
include h he

/-- The first rows that have the keys of two rows get the answer that these rows get. -/
theorem judge_eq_ok_iff {q : Nat × Nat} (hl : q.1 < left.rowCount) (hr : q.2 < right.rowCount)
    (kept : Bool) :
    (Plan.onColumns keys e).judge params left right q = .ok kept ↔
      (Plan.onColumns keys e).judgeRows params left right q = .ok kept := by
  have hinputs : SortedInputs (.onColumns keys e) left right := h.sortedInputs
  exact accepts_eq_ok_congr he (hinputs.leftKeys.sameKey_firstWithKey hl)
    (hinputs.rightKeys.sameKey_firstWithKey hr) kept

theorem nestedLoop_eq_rowwiseLoop :
    (Plan.onColumns keys e).nestedLoop params left right
      = (Plan.onColumns keys e).rowwiseLoop params left right := by
  refine List.filter_congr fun q hq => ?_
  obtain ⟨hl, hr⟩ := mem_rowPairs.1 hq
  simp only [h.judge_eq_ok_iff he hl hr]

/-- Every pair of rows of a match gets the outcome of the match. -/
theorem judgeRows_of_mem_pairs {m : Match}
    (hm : m ∈ ((Plan.onColumns keys e).merge params left right).toList) {q : Nat × Nat}
    (hq : q ∈ m.pairs) : (Plan.onColumns keys e).judgeRows params left right q = .ok m.kept := by
  obtain ⟨hl, hr⟩ := Match.mem_pairs.1 hq
  have hcovers := h.sortedInputs.covers_of_mem_rows hm hl hr
  exact (h.judge_eq_ok_iff he hcovers.left_lt hcovers.right_lt m.kept).1 hcovers.judged

/-- The merge goes through exactly if the predicate has an outcome on every pair of rows with equal
    keys. -/
theorem ending_eq_none_iff_rows :
    ((Plan.onColumns keys e).merge params left right).ending = none ↔
      ∀ q ∈ rowPairs left right,
        sameKey (Plan.onColumns keys e).clauses .left (left.row q.1) .right (right.row q.2) = true →
          ∃ kept, (Plan.onColumns keys e).judgeRows params left right q = .ok kept := by
  have hinputs : SortedInputs (.onColumns keys e) left right := h.sortedInputs
  constructor
  · intro hok q hq hsame
    obtain ⟨hl, hr⟩ := mem_rowPairs.1 hq
    obtain ⟨m, hm, hlm, hrm⟩ := hinputs.exists_match hok hl hr hsame
    exact ⟨m.kept, h.judgeRows_of_mem_pairs he hm (Match.mem_pairs.2 ⟨hlm, hrm⟩)⟩
  · intro hrows
    rw [hinputs.ending_eq_none_iff]
    intro q hq
    obtain ⟨⟨hl, hr⟩, ⟨hsame, -⟩, -⟩ := Plan.mem_sharedKeys.1 hq
    obtain ⟨kept, hkept⟩ := hrows q (mem_rowPairs.2 ⟨hl, hr⟩) hsame
    exact ⟨kept, (h.judge_eq_ok_iff he hl hr kept).2 hkept⟩

end ColumnInputs

/-! ## The equivalence -/

/-- Merging sorted tiles on columns, with a predicate over these columns alone, goes through exactly
    if the predicate has an outcome on every pair of rows with equal keys. It then emits, in order,
    the pairs of rows with equal keys that the predicate accepts themselves; and on all pairs of
    rows of one match, kept or dropped, the predicate has the outcome of the match. -/
theorem merge_eq_rowwiseLoop {keys : List (Nat × Nat)} {e : Expr} (params : List Scalar)
    {left right : Tile} (h : ColumnInputs keys left right) (he : e.ReadsKeys keys) :
    (((Plan.onColumns keys e).merge params left right).ending = none ↔
        ∀ q ∈ rowPairs left right,
          sameKey (Plan.onColumns keys e).clauses .left (left.row q.1) .right (right.row q.2)
              = true →
            ∃ kept, (Plan.onColumns keys e).judgeRows params left right q = .ok kept) ∧
      (((Plan.onColumns keys e).merge params left right).ending = none →
        emittedPairs ((Plan.onColumns keys e).merge params left right).toList
            = (Plan.onColumns keys e).rowwiseLoop params left right ∧
          ∀ m ∈ ((Plan.onColumns keys e).merge params left right).toList, ∀ q ∈ m.pairs,
            (Plan.onColumns keys e).judgeRows params left right q = .ok m.kept) := by
  refine ⟨h.ending_eq_none_iff_rows he, fun hok => ⟨?_, fun m hm q hq => ?_⟩⟩
  · exact (h.sortedInputs.emittedPairs_eq hok).trans (h.nestedLoop_eq_rowwiseLoop he)
  · exact h.judgeRows_of_mem_pairs he hm hq

namespace Example

/-- Null, then three spellings of zero and one, sorted. -/
def readings : Tile :=
  tile [[.null, .float64 0x8000000000000000, .int16 0, .int32 1],
    [.bool true, .text "a", .text "a", .text "b"]] 4

/-- The same keys in other spellings, with the columns exchanged. -/
def limits : Tile :=
  tile [[.bool true, .text "a", .text "a", .text "b"],
    [.null, .int64 0, .float32 0x80000000, .float64 0x3ff0000000000000]] 4

/-- Readings above the parameter, or whose limit is not above zero. -/
def outside : Expr :=
  .junction .or [.compare .gt (.column .left 0) (.param 0),
    .not (.compare .gt (.column .right 1) (.literal (.float32 0)))]

end Example

/-- Both zeros stand in one group, whose pairs are all kept; on nulls the predicate is unknown. -/
theorem merge_eq_rowwiseLoop_readings :
    (ColumnInputs [(0, 1), (1, 0)] Example.readings Example.limits ∧
        Example.outside.ReadsKeys [(0, 1), (1, 0)]) ∧
      ((Plan.onColumns [(0, 1), (1, 0)] Example.outside).merge [.int64 1] Example.readings
        Example.limits).ending = none ∧
      emittedPairs ((Plan.onColumns [(0, 1), (1, 0)] Example.outside).merge [.int64 1]
        Example.readings Example.limits).toList = [(1, 1), (1, 2), (2, 1), (2, 2)] := by
  have hinputs : ColumnInputs [(0, 1), (1, 0)] Example.readings Example.limits :=
    ⟨by decide, by decide, by decide, by decide, by decide⟩
  have hreads : Example.outside.ReadsKeys [(0, 1), (1, 0)] := by decide
  obtain ⟨hending, hresult⟩ := merge_eq_rowwiseLoop [.int64 1] hinputs hreads
  have hok := hending.2 (by decide)
  exact ⟨⟨hinputs, hreads⟩, hok, (hresult hok).1.trans (by decide)⟩

end SortMerge

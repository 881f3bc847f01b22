import SortMerge.Proofs.Join.Isolation
import SortMerge.Proofs.Join.NestedLoop
import SortMerge.Proofs.Tile.Resolution

set_option autoImplicit false

/-! # Where a merge fails

A merge evaluates expressions in three places: a half of a clause on neighbouring rows of one tile,
both halves on the first rows of two groups, and the predicate on the first rows of a match. Every
failure of a merge is traced back here to one of these evaluations, on rows that the tiles have. The
check of a plan and its output schema bound the columns that are read there, so that a plan which
passes both never asks a full tile for a value that it does not have. What is left is data: operands
that are not boolean, and parameters of the predicate that the run does not supply. -/

namespace SortMerge

variable {p : Plan} {params : List Scalar} {left right : Tile} {err : ExprError}

/-! ## Keys -/

/-- A comparison clause by clause fails where one of the two values has failed. -/
theorem orderBy_eq_error {first second : Clause → Except ExprError Scalar} {cs : List Clause}
    (h : orderBy first second cs = .error err) :
    ∃ c ∈ cs, first c = .error err ∨ second c = .error err := by
  induction cs with
  | nil => cases h
  | cons c cs ih =>
      rw [orderBy] at h
      split at h
      · next e hfirst =>
          cases h
          exact ⟨c, List.mem_cons_self, .inl hfirst⟩
      · split at h
        · next e hsecond =>
            cases h
            exact ⟨c, List.mem_cons_self, .inr hsecond⟩
        · split at h
          · obtain ⟨d, hd, hfails⟩ := ih h
            exact ⟨d, List.mem_cons_of_mem _ hd, hfails⟩
          · cases h

section Walks

variable {clauses : List Clause} {side : Side} {t : Tile}

theorem groupEndFrom_eq_error {remaining row : Nat}
    (h : groupEndFrom clauses side t remaining row = .error err) :
    ∃ i, row ≤ i ∧ i < row + remaining ∧
      keyOrder clauses side (t.row (i - 1)) (t.row i) = .error err := by
  fun_induction groupEndFrom clauses side t remaining row with
  | case1 => cases h
  | case2 remaining row e he =>
      cases h
      exact ⟨row, Nat.le_refl _, by omega, he⟩
  | case3 remaining row heq ih =>
      obtain ⟨i, hle, hlt, hfails⟩ := ih h
      exact ⟨i, by omega, by omega, hfails⟩
  | case4 => cases h

theorem groupEnd_eq_error {start : Nat} (h : groupEnd clauses side t start = .error err) :
    ∃ i < t.rowCount, keyOrder clauses side (t.row (i - 1)) (t.row i) = .error err := by
  unfold groupEnd at h
  split at h
  · cases h
  · obtain ⟨i, hle, hlt, hfails⟩ := groupEndFrom_eq_error h
    exact ⟨i, by omega, hfails⟩

theorem groupsFrom_ending_eq_some {bound start : Nat}
    (h : (groupsFrom clauses side t bound start).ending = some err) :
    ∃ i < t.rowCount, keyOrder clauses side (t.row (i - 1)) (t.row i) = .error err := by
  fun_induction groupsFrom clauses side t bound start with
  | case1 | case2 => cases h
  | case3 bound start hlt e he =>
      cases h
      exact groupEnd_eq_error he
  | case4 bound start hlt stop hstop ih => exact ih h

/-- A walk over groups fails at the key of a row of the tile. -/
theorem groups_ending_eq_some (h : (groups clauses side t).ending = some err) :
    ∃ c ∈ clauses, ∃ i < t.rowCount, c.key side (t.row i) = .error err := by
  obtain ⟨i, hi, hfails⟩ := groupsFrom_ending_eq_some h
  obtain ⟨c, hc, hfirst | hsecond⟩ := orderBy_eq_error hfails
  · exact ⟨c, hc, i - 1, by omega, hfirst⟩
  · exact ⟨c, hc, i, hi, hsecond⟩

end Walks

/-! ## Merging -/

/-- The first rows of the two groups cannot be compared, or they compare equal and the predicate
    fails on them. -/
def FailsAt (p : Plan) (params : List Scalar) (left right : Tile) (err : ExprError)
    (g k : Group) : Prop :=
  pairOrder p.clauses (left.row g.first) (right.row k.first) = .error err ∨
    pairOrder p.clauses (left.row g.first) (right.row k.first) = .ok .eq ∧
      p.accepts params (left.row g.first) (right.row k.first) = .error err

/-- A merge of two walks fails because one of them has, or at a pair of their groups. -/
theorem mergeGroups_ending_eq_some {gs hs : Trail (Option ExprError) Group}
    (h : (p.mergeGroups params left right gs hs).ending = some err) :
    gs.ending = some err ∨ hs.ending = some err ∨
      ∃ g ∈ gs.toList, ∃ k ∈ hs.toList, FailsAt p params left right err g k := by
  fun_induction Plan.mergeGroups p params left right gs hs with
  | case1 => exact .inl h
  | case2 => exact .inr (.inl h)
  | case3 | case4 => cases h
  | case5 g gs k hs l r e he =>
      cases h
      exact .inr (.inr ⟨g, List.mem_cons_self, k, List.mem_cons_self, .inl he⟩)
  | case6 g gs k hs l r hlt ih =>
      refine (ih h).imp_right fun hlater => hlater.imp_right ?_
      rintro ⟨g', hg', k', hk', hfails⟩
      exact ⟨g', List.mem_cons_of_mem _ hg', k', hk', hfails⟩
  | case7 g gs k hs l r hgt ih =>
      refine (ih h).imp_right fun hlater => hlater.imp_right ?_
      rintro ⟨g', hg', k', hk', hfails⟩
      exact ⟨g', hg', k', List.mem_cons_of_mem _ hk', hfails⟩
  | case8 g gs k hs l r heq e he =>
      cases h
      exact .inr (.inr ⟨g, List.mem_cons_self, k, List.mem_cons_self, .inr ⟨heq, he⟩⟩)
  | case9 g gs k hs l r heq kept hkept ih =>
      refine (ih h).imp_right fun hlater => hlater.imp_right ?_
      rintro ⟨g', hg', k', hk', hfails⟩
      exact ⟨g', List.mem_cons_of_mem _ hg', k', List.mem_cons_of_mem _ hk', hfails⟩

/-- If the clauses read their own side only, a merge fails at the key of a row, or at the predicate
    on the first rows of two groups with equal keys. -/
theorem merge_ending_eq_some (hreads : ∀ c ∈ p.clauses, c.ReadsOwnSide)
    (h : (p.merge params left right).ending = some err) :
    (∃ side, ∃ c ∈ p.clauses, ∃ i < (side.pick left right).rowCount,
        c.key side ((side.pick left right).row i) = .error err) ∨
      ∃ g k, IsGroup p.clauses .left left g ∧ IsGroup p.clauses .right right k ∧
        pairOrder p.clauses (left.row g.first) (right.row k.first) = .ok .eq ∧
        p.accepts params (left.row g.first) (right.row k.first) = .error err := by
  rcases mergeGroups_ending_eq_some h with hleft | hright | ⟨g, hg, k, hk, hfails⟩
  · exact .inl ⟨.left, groups_ending_eq_some hleft⟩
  · exact .inl ⟨.right, groups_ending_eq_some hright⟩
  · have hg := isGroup_of_mem_groups hg
    have hk := isGroup_of_mem_groups hk
    rcases hfails with hfails | ⟨heq, hfails⟩
    · rw [pairOrder_eq_orderBy hreads] at hfails
      obtain ⟨c, hc, hfirst | hsecond⟩ := orderBy_eq_error hfails
      · exact .inl ⟨.left, c, hc, g.first, hg.first_lt_rowCount, hfirst⟩
      · exact .inl ⟨.right, c, hc, k.first, hk.first_lt_rowCount, hsecond⟩
    · exact .inr ⟨g, k, hg, hk, heq, hfails⟩

theorem accepts_eq_error {l r : Row} (h : p.accepts params l r = .error err) :
    ∃ e, p.predicate = some e ∧ e.eval ⟨l, r, params⟩ = .error err := by
  unfold Plan.accepts at h
  split at h
  · cases h
  · next e hpredicate =>
      split at h
      · next err' herr =>
          cases h
          exact ⟨e, hpredicate, herr⟩
      · cases h

/-! ## Checked plans -/

/-- What is known before a plan runs: it is valid, it has an output schema for the schemas of two
    full tiles, and the tiles have as many columns as these. -/
structure CheckedInputs (p : Plan) (leftSchema rightSchema : Schema) (left right : Tile) :
    Prop where
  valid : p.validate = .ok ()
  planned : ∃ out, p.outputSchema [leftSchema, rightSchema] = .ok out
  leftWidth : left.columnCount = leftSchema.fields.length
  rightWidth : right.columnCount = rightSchema.fields.length
  leftFull : left.Full
  rightFull : right.Full

namespace CheckedInputs

variable {ls rs : Schema} (h : CheckedInputs p ls rs left right)
include h

theorem full (side : Side) : (side.pick left right).Full := by
  cases side with
  | left => exact h.leftFull
  | right => exact h.rightFull

theorem width (side : Side) :
    (side.pick left right).columnCount = (side.pick ls rs).fields.length := by
  cases side with
  | left => exact h.leftWidth
  | right => exact h.rightWidth

/-- A column that the plan reads has a value in every row of its side. -/
theorem value_ne_none {side : Side} {index : Nat} (hread : (side, index) ∈ p.columns) {i : Nat}
    (hi : i < (side.pick left right).rowCount) : (side.pick left right).value index i ≠ none := by
  obtain ⟨out, hout⟩ := h.planned
  have hindex : index < (side.pick left right).columnCount := by
    rw [h.width]
    exact (Plan.outputSchema_eq_ok_iff.1 hout).1 (side, index) hread
  have hvalue := h.full side index hindex i hi
  intro hnone
  rw [hnone] at hvalue
  cases hvalue

/-- The key of a row that the tile has can only fail at an operand. -/
theorem key_error {side : Side} {c : Clause} (hc : c ∈ p.clauses) {i : Nat}
    (hi : i < (side.pick left right).rowCount)
    (herr : c.key side ((side.pick left right).row i) = .error err) :
    ∃ op got, err = .notBoolean op got := by
  have hreads := ((Plan.validate_eq_ok_iff p).1 h.valid).2 c hc
  rcases hreads.key_error_cases herr with ⟨index, hread, hempty, -⟩ | hoperand
  · have hcolumn : (side, index) ∈ p.columns := Plan.mem_columns.2 (.inl ⟨c, hc, side, hread⟩)
    exact absurd hempty (h.value_ne_none hcolumn hi)
  · exact hoperand

/-- On rows that the tiles have, the predicate fails at an operand or at a parameter that it reads
    and the run does not supply. -/
theorem predicate_error {e : Expr} (he : p.predicate = some e) {l r : Nat} (hl : l < left.rowCount)
    (hr : r < right.rowCount) (herr : e.eval ⟨left.row l, right.row r, params⟩ = .error err) :
    (∃ op got, err = .notBoolean op got) ∨
      ∃ index, err = .unboundParam index ∧ index ∈ e.params ∧ params.length ≤ index := by
  cases Expr.eval_justified e herr with
  | @column side index hread hempty =>
      have hcolumn : (side, index) ∈ p.columns := Plan.mem_columns.2 (.inr ⟨e, he, hread⟩)
      cases side with
      | left => exact absurd hempty (h.value_ne_none hcolumn hl)
      | right => exact absurd hempty (h.value_ne_none hcolumn hr)
  | param hread hunbound => exact .inr ⟨_, rfl, hread, hunbound⟩
  | operand => exact .inl ⟨_, _, rfl⟩

end CheckedInputs

/-- A merge of checked inputs never asks for a value that is not there. If it fails, then at an
    operand that is not boolean, or at the predicate, on the first rows of two groups with equal
    keys, which reads a parameter past those that the run supplies. -/
theorem checked_merge_error {p : Plan} (params : List Scalar) {ls rs : Schema} {left right : Tile}
    (h : CheckedInputs p ls rs left right) :
    ∀ err, (p.merge params left right).ending = some err →
      (∃ op got, err = .notBoolean op got) ∨
        ∃ e index g k, p.predicate = some e ∧ err = .unboundParam index ∧ index ∈ e.params ∧
          params.length ≤ index ∧ IsGroup p.clauses .left left g ∧
          IsGroup p.clauses .right right k ∧
          pairOrder p.clauses (left.row g.first) (right.row k.first) = .ok .eq ∧
          e.eval ⟨left.row g.first, right.row k.first, params⟩ = .error err := by
  intro err herr
  have hreads := ((Plan.validate_eq_ok_iff p).1 h.valid).2
  rcases merge_ending_eq_some hreads herr with
    ⟨side, c, hc, i, hi, hkey⟩ | ⟨g, k, hg, hk, heq, hasked⟩
  · exact .inl (h.key_error hc hi hkey)
  · obtain ⟨e, he, heval⟩ := accepts_eq_error hasked
    rcases h.predicate_error he hg.first_lt_rowCount hk.first_lt_rowCount heval with
      hoperand | ⟨index, herr, hread, hunbound⟩
    · exact .inl hoperand
    · exact .inr ⟨e, index, g, k, he, herr, hread, hunbound, hg, hk, heq, heval⟩

namespace Example

/-- Equal keys that are flagged, or are below the second parameter. -/
def flagged : Plan :=
  { clauses := [.onColumns 0 0]
    predicate := some (.junction .or
      [.column .left 1, .compare .lt (.column .right 0) (.param 1)]) }

def keysAndFlags : Schema := ⟨[⟨"k", .int32, false⟩, ⟨"flag", .boolean, true⟩]⟩

def keysOnly : Schema := ⟨[⟨"k", .int64, false⟩]⟩

def flags : Tile := tile [[.int32 1, .int32 2], [.bool true, .null]] 2

def keys : Tile := tile [[.int64 1, .int64 2]] 2

end Example

/-- The first match is flagged, so that the parameter is not asked for; the second one asks for it,
    and the run supplies one parameter only. -/
theorem checked_merge_error_flagged :
    CheckedInputs Example.flagged Example.keysAndFlags Example.keysOnly Example.flags
        Example.keys ∧
      (Example.flagged.merge [.null] Example.flags Example.keys).ending
        = some (.unboundParam 1) ∧
      ∃ e g k, Example.flagged.predicate = some e ∧ 1 ∈ e.params ∧
        e.eval ⟨Example.flags.row g, Example.keys.row k, [.null]⟩
          = .error (.unboundParam 1) := by
  have hchecked : CheckedInputs Example.flagged Example.keysAndFlags Example.keysOnly
      Example.flags Example.keys :=
    ⟨by decide, ⟨_, rfl⟩, rfl, rfl, by decide, by decide⟩
  have hleft : groups Example.flagged.clauses .left Example.flags
      = .step ⟨0, 1⟩ (.step ⟨1, 2⟩ (.stop none)) := rfl
  have hright : groups Example.flagged.clauses .right Example.keys
      = .step ⟨0, 1⟩ (.step ⟨1, 2⟩ (.stop none)) := rfl
  have hfirst : pairOrder Example.flagged.clauses (Example.flags.row 0) (Example.keys.row 0)
      = .ok .eq := by decide
  have hsecond : pairOrder Example.flagged.clauses (Example.flags.row 1) (Example.keys.row 1)
      = .ok .eq := by decide
  have hkept : Example.flagged.accepts [.null] (Example.flags.row 0) (Example.keys.row 0)
      = .ok true := rfl
  have hasked : Example.flagged.accepts [.null] (Example.flags.row 1) (Example.keys.row 1)
      = .error (.unboundParam 1) := rfl
  have hending : (Example.flagged.merge [.null] Example.flags Example.keys).ending
      = some (.unboundParam 1) := by
    rw [Plan.merge, hleft, hright, Plan.mergeGroups]
    simp only [hfirst, hkept]
    rw [Plan.mergeGroups]
    simp only [hsecond, hasked, Trail.ending]
  rcases checked_merge_error [.null] hchecked _ hending with
    ⟨_, _, hoperand⟩ | ⟨e, index, g, k, he, herr, hread, _, _, _, _, heval⟩
  · cases hoperand
  · cases herr
    exact ⟨hchecked, hending, e, g.first, k.first, he, hread, heval⟩

end SortMerge

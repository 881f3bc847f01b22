import SortMerge.Proofs.Join.NestedLoop
import SortMerge.Proofs.Join.Output

set_option autoImplicit false

/-! # What the predicate does to a merge

The predicate is asked in the middle of a merge, between finding a pair of groups with equal keys
and moving on. Its answer is recorded and changes nothing about the way that the merge takes. So a
merge with a predicate is the merge without it, followed by a pass over the matches that asks about
each of them and stops where the predicate fails. Whole products of groups are kept or dropped, and
which products there are to choose from depends neither on the predicate nor on its parameters. This
holds for tiles in any order. -/

namespace SortMerge

/-- The two groups of a match. -/
def Match.groups (m : Match) : Group × Group := (m.left, m.right)

namespace Plan

variable {p : Plan} {params : List Scalar} {left right : Tile}

/-- The plan that keeps every match. -/
def unfiltered (p : Plan) : Plan := { p with predicate := none }

@[simp] theorem unfiltered_clauses (p : Plan) : p.unfiltered.clauses = p.clauses := rfl

@[simp] theorem unfiltered_accepts (p : Plan) (params : List Scalar) (l r : Row) :
    p.unfiltered.accepts params l r = .ok true := rfl

/-- Asks the predicate about each match, up to the first one on which it fails. -/
def judgeAll (p : Plan) (params : List Scalar) (left right : Tile) :
    Trail (Option ExprError) Match → Trail (Option ExprError) Match
  | .stop e => .stop e
  | .step m rest =>
    match p.accepts params (left.row m.left.first) (right.row m.right.first) with
    | .error e => .stop (some e)
    | .ok kept => .step { m with kept := kept } (p.judgeAll params left right rest)

/-! ## The predicate comes last -/

/-- Asking during the merge is the same as asking afterwards, whatever parameters the merge without
    the predicate is given. -/
theorem mergeGroups_eq_judgeAll (params' : List Scalar) (gs hs : Trail (Option ExprError) Group) :
    p.mergeGroups params left right gs hs
      = p.judgeAll params left right (p.unfiltered.mergeGroups params' left right gs hs) := by
  fun_induction Plan.mergeGroups p params left right gs hs with
  | case1 | case2 | case3 | case4 => simp [mergeGroups, judgeAll]
  | case5 g gs h hs l r e he =>
      rw [mergeGroups]
      simp [he, l, r, judgeAll]
  -- on unequal keys both merges move on the same side without asking
  | case6 g gs h hs l r hlt ih =>
      rw [mergeGroups]
      simp [hlt, l, r, ih]
  | case7 g gs h hs l r hgt ih =>
      rw [mergeGroups]
      simp [hgt, l, r, ih]
  | case8 g gs h hs l r heq e he =>
      rw [mergeGroups]
      simp [heq, he, l, r, judgeAll]
  | case9 g gs h hs l r heq kept hkept ih =>
      rw [mergeGroups]
      simp [heq, hkept, l, r, judgeAll, ih]

theorem merge_eq_judgeAll (params params' : List Scalar) :
    p.merge params left right
      = p.judgeAll params left right (p.unfiltered.merge params' left right) :=
  mergeGroups_eq_judgeAll params' _ _

theorem judgeAll_ending_eq_none_iff (t : Trail (Option ExprError) Match) :
    (p.judgeAll params left right t).ending = none ↔
      t.ending = none ∧ ∀ m ∈ t.toList, ∃ kept,
        p.accepts params (left.row m.left.first) (right.row m.right.first) = .ok kept := by
  induction t with
  | stop e => simp [judgeAll, Trail.toList]
  | step m rest ih =>
      rw [judgeAll, Trail.toList, List.forall_mem_cons]
      cases hasked : p.accepts params (left.row m.left.first) (right.row m.right.first) with
      | error e => simp [Trail.ending]
      | ok kept =>
          simp only [Trail.ending, ih, Except.ok.injEq, exists_eq', true_and]

theorem map_groups_judgeAll {t : Trail (Option ExprError) Match}
    (h : (p.judgeAll params left right t).ending = none) :
    (p.judgeAll params left right t).toList.map Match.groups = t.toList.map Match.groups := by
  induction t with
  | stop e => rfl
  | step m rest ih =>
      rw [judgeAll] at h ⊢
      cases hasked : p.accepts params (left.row m.left.first) (right.row m.right.first) with
      | error e =>
          rw [hasked] at h
          cases h
      | ok kept =>
          rw [hasked] at h
          simp only [Trail.toList, List.map_cons, ih h]
          rfl

theorem judgeAll_unfiltered (params' : List Scalar) (t : Trail (Option ExprError) Match) :
    p.unfiltered.judgeAll params left right t = p.unfiltered.judgeAll params' left right t := by
  induction t with
  | stop e => rfl
  | step m rest ih => simp [judgeAll, ih]

/-- Without a predicate nobody asks for parameters. -/
theorem merge_unfiltered (params params' : List Scalar) :
    p.unfiltered.merge params left right = p.unfiltered.merge params' left right := by
  have hunfiltered : p.unfiltered.unfiltered = p.unfiltered := rfl
  rw [merge_eq_judgeAll params [], merge_eq_judgeAll params' [], hunfiltered,
    judgeAll_unfiltered params']

/-! ## Products -/

/-- The pairs of groups that a merge on the clauses of the plan matches, in order. Neither the
    predicate nor any parameter has a part in them. -/
def products (p : Plan) (left right : Tile) : List (Group × Group) :=
  (p.unfiltered.merge [] left right).toList.map Match.groups

theorem isGroup_of_mem_products {q : Group × Group} (hq : q ∈ p.products left right) :
    IsGroup p.clauses .left left q.1 ∧ IsGroup p.clauses .right right q.2 := by
  obtain ⟨m, hm, rfl⟩ := List.mem_map.1 hq
  obtain ⟨hl, hr, -⟩ := isMatch_of_mem_merge hm
  exact ⟨hl, hr⟩

theorem map_groups_unfiltered (params : List Scalar) :
    (p.unfiltered.merge params left right).toList.map Match.groups = p.products left right := by
  rw [products, merge_unfiltered params []]

/-- A merge that goes through visits the products, whatever it keeps of them. -/
theorem map_groups_merge (h : (p.merge params left right).ending = none) :
    (p.merge params left right).toList.map Match.groups = p.products left right := by
  rw [merge_eq_judgeAll params []] at h ⊢
  rw [map_groups_judgeAll h, products]

/-- A merge goes through exactly if it does without its predicate, and the predicate has an outcome
    on the first rows of every product. -/
theorem merge_ending_eq_none_iff :
    (p.merge params left right).ending = none ↔
      (p.unfiltered.merge params left right).ending = none ∧ ∀ q ∈ p.products left right,
        ∃ kept, p.accepts params (left.row q.1.first) (right.row q.2.first) = .ok kept := by
  rw [merge_eq_judgeAll params params, judgeAll_ending_eq_none_iff,
    ← map_groups_unfiltered params, List.forall_mem_map]
  rfl

end Plan

theorem emittedPairs_eq_productPairs (ms : List Match) :
    emittedPairs ms = Output.productPairs ((keptMatches ms).map Match.groups) := by
  rw [Output.productPairs, List.flatMap_map]
  rfl

theorem matched_add_discarded (ms : List Match) :
    (PassStats.ofMatches ms).matched + (PassStats.ofMatches ms).discarded = ms.length :=
  (List.length_eq_length_filter_add _).symm

/-! ## Keeping and dropping products -/

/-- Whether the expression has a value on the first rows of two groups which is neither false nor
    null. -/
def Expr.qualifies (e : Expr) (params : List Scalar) (left right : Tile) (q : Group × Group) :
    Bool :=
  match e.eval ⟨left.row q.1.first, right.row q.2.first, params⟩ with
  | .ok v => !v.isFalse
  | .error _ => false

section Predicate

variable {p : Plan} {e : Expr} (hp : p.predicate = some e) {params : List Scalar}
  {left right : Tile}
include hp

theorem accepts_eq_ok_iff {l r : Row} {kept : Bool} :
    p.accepts params l r = .ok kept ↔
      ∃ v, e.eval ⟨l, r, params⟩ = .ok v ∧ kept = !v.isFalse := by
  unfold Plan.accepts
  rw [hp]
  cases heval : e.eval ⟨l, r, params⟩ with
  | error err => simp [heval]
  | ok v => simp [heval, eq_comm]

theorem exists_accepts_eq_ok_iff {l r : Row} :
    (∃ kept, p.accepts params l r = .ok kept) ↔ ∃ v, e.eval ⟨l, r, params⟩ = .ok v := by
  constructor
  · rintro ⟨kept, hkept⟩
    obtain ⟨v, hv, -⟩ := (accepts_eq_ok_iff hp).1 hkept
    exact ⟨v, hv⟩
  · rintro ⟨v, hv⟩
    exact ⟨_, (accepts_eq_ok_iff hp).2 ⟨v, hv, rfl⟩⟩

theorem qualifies_of_accepts {q : Group × Group} {kept : Bool}
    (h : p.accepts params (left.row q.1.first) (right.row q.2.first) = .ok kept) :
    e.qualifies params left right q = kept := by
  obtain ⟨v, hv, rfl⟩ := (accepts_eq_ok_iff hp).1 h
  rw [Expr.qualifies, hv]

/-- The matches that are kept are those on whose first rows the predicate qualifies. -/
theorem map_groups_keptMatches :
    (keptMatches (p.merge params left right).toList).map Match.groups
      = ((p.merge params left right).toList.map Match.groups).filter
          (e.qualifies params left right) := by
  rw [List.filter_map, keptMatches]
  refine congrArg _ (List.filter_congr ?_)
  intro m hm
  obtain ⟨-, -, hmatch⟩ := isMatch_of_mem_merge hm
  exact (qualifies_of_accepts hp (q := m.groups) hmatch.judged).symm

end Predicate

/-- Without a predicate every match is kept. -/
theorem keptMatches_unfiltered {p : Plan} {params : List Scalar} {left right : Tile} :
    keptMatches (p.unfiltered.merge params left right).toList
      = (p.unfiltered.merge params left right).toList := by
  refine List.filter_eq_self.2 ?_
  intro m hm
  obtain ⟨-, -, hmatch⟩ := isMatch_of_mem_merge hm
  have hjudged := hmatch.judged
  rw [Plan.unfiltered_accepts, Except.ok.injEq] at hjudged
  exact hjudged.symm

/-- The predicate decides about whole products. A merge with it goes through exactly if the merge
    without it does and the predicate has a value on the first rows of every product. The merge
    without it emits all products. The merge with it visits the same products in the same order,
    and emits those whose first rows qualify; together, the matches that it keeps and those that it
    drops are as many as the products. Other parameters change nothing but the choice. -/
theorem merge_filters_products {p : Plan} {e : Expr} (hp : p.predicate = some e)
    (params : List Scalar) (left right : Tile) :
    ((p.merge params left right).ending = none ↔
        (p.unfiltered.merge params left right).ending = none ∧ ∀ q ∈ p.products left right,
          ∃ v, e.eval ⟨left.row q.1.first, right.row q.2.first, params⟩ = .ok v) ∧
      (∀ q ∈ p.products left right,
        IsGroup p.clauses .left left q.1 ∧ IsGroup p.clauses .right right q.2) ∧
      emittedPairs (p.unfiltered.merge params left right).toList
        = Output.productPairs (p.products left right) ∧
      (PassStats.ofMatches (p.unfiltered.merge params left right).toList).matched
        = (p.products left right).length ∧
      ((p.merge params left right).ending = none →
        emittedPairs (p.merge params left right).toList
            = Output.productPairs
                ((p.products left right).filter (e.qualifies params left right)) ∧
          (PassStats.ofMatches (p.merge params left right).toList).matched
              + (PassStats.ofMatches (p.merge params left right).toList).discarded
            = (p.products left right).length ∧
          ∀ params', (p.merge params' left right).ending = none →
            (p.merge params' left right).toList.map Match.groups
              = (p.merge params left right).toList.map Match.groups) := by
  refine ⟨?_, fun q hq => Plan.isGroup_of_mem_products hq, ?_, ?_, ?_⟩
  · rw [Plan.merge_ending_eq_none_iff]
    simp only [exists_accepts_eq_ok_iff hp]
  · rw [emittedPairs_eq_productPairs, keptMatches_unfiltered, Plan.map_groups_unfiltered]
  · rw [PassStats.ofMatches, keptMatches_unfiltered, ← Plan.map_groups_unfiltered params,
      List.length_map]
  · intro hok
    have hvisited := Plan.map_groups_merge hok
    refine ⟨?_, ?_, ?_⟩
    · rw [emittedPairs_eq_productPairs, map_groups_keptMatches hp, hvisited]
    · rw [matched_add_discarded, ← hvisited, List.length_map]
    · intro params' hok'
      rw [Plan.map_groups_merge hok', hvisited]

namespace Example

/-- Keys that go up and down, each row with a mark. -/
def marked : Tile :=
  tile [[.int16 3, .int16 3, .int16 1, .int16 2], [.null, .bool true, .bool true, .text "x"]] 4

def shuffled : Tile := tile [[.int32 1, .int64 3, .int32 2, .int32 2]] 4

/-- Equal keys, with the mark of the left row as the predicate. -/
def byMark : Plan := { clauses := [.onColumns 0 0], predicate := some (.column .left 1) }

end Example

/-- Two of the three shared keys are found. Null in the first row drops the first product, although
    its second row says true; a text is not false and keeps the second one. -/
theorem merge_filters_products_marked :
    Example.byMark.predicate = some (.column .left 1) ∧
      Example.byMark.products Example.marked Example.shuffled
        = [(⟨0, 2⟩, ⟨1, 2⟩), (⟨3, 4⟩, ⟨2, 4⟩)] ∧
      emittedPairs (Example.byMark.unfiltered.merge [] Example.marked Example.shuffled).toList
        = [(0, 1), (1, 1), (3, 2), (3, 3)] ∧
      (Example.byMark.merge [] Example.marked Example.shuffled).ending = none ∧
      emittedPairs (Example.byMark.merge [] Example.marked Example.shuffled).toList
        = [(3, 2), (3, 3)] := by
  have hp : Example.byMark.predicate = some (.column .left 1) := rfl
  have hleft : groups Example.byMark.clauses .left Example.marked
      = .step ⟨0, 2⟩ (.step ⟨2, 3⟩ (.step ⟨3, 4⟩ (.stop none))) := rfl
  have hright : groups Example.byMark.clauses .right Example.shuffled
      = .step ⟨0, 1⟩ (.step ⟨1, 2⟩ (.step ⟨2, 4⟩ (.stop none))) := rfl
  have habove : pairOrder Example.byMark.clauses (Example.marked.row 0) (Example.shuffled.row 0)
      = .ok .gt := by decide
  have hthree : pairOrder Example.byMark.clauses (Example.marked.row 0) (Example.shuffled.row 1)
      = .ok .eq := by decide
  have hbelow : pairOrder Example.byMark.clauses (Example.marked.row 2) (Example.shuffled.row 2)
      = .ok .lt := by decide
  have htwo : pairOrder Example.byMark.clauses (Example.marked.row 3) (Example.shuffled.row 2)
      = .ok .eq := by decide
  have hfree : Example.byMark.unfiltered.merge [] Example.marked Example.shuffled
      = .step ⟨⟨0, 2⟩, ⟨1, 2⟩, true⟩ (.step ⟨⟨3, 4⟩, ⟨2, 4⟩, true⟩ (.stop none)) := by
    simp only [Plan.merge, Plan.unfiltered_clauses, hleft, hright, Plan.mergeGroups, habove, hthree,
      hbelow, htwo, Plan.unfiltered_accepts]
  have hproducts : Example.byMark.products Example.marked Example.shuffled
      = [(⟨0, 2⟩, ⟨1, 2⟩), (⟨3, 4⟩, ⟨2, 4⟩)] := by
    rw [Plan.products, hfree]
    rfl
  obtain ⟨hending, -, hall, -, hkept⟩ :=
    merge_filters_products hp [] Example.marked Example.shuffled
  rw [hproducts] at hending hall hkept
  have hvalues : ∀ q ∈ [((⟨0, 2⟩, ⟨1, 2⟩) : Group × Group), (⟨3, 4⟩, ⟨2, 4⟩)], ∃ v,
      Expr.eval ⟨Example.marked.row q.1.first, Example.shuffled.row q.2.first, []⟩ (.column .left 1)
        = .ok v := by
    rw [List.forall_mem_cons, List.forall_mem_singleton]
    exact ⟨⟨.null, rfl⟩, ⟨.text "x", rfl⟩⟩
  have hok := hending.2 ⟨by rw [hfree]; rfl, hvalues⟩
  exact ⟨hp, hproducts, hall.trans rfl, hok, (hkept hok).1.trans rfl⟩

end SortMerge

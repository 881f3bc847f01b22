import SortMerge.Join.Merge
import SortMerge.Proofs.Join.Group

set_option autoImplicit false

/-! # What merging two walks finds

Whatever the tiles hold, a merge only ever reports pairs of groups whose first rows have equal keys,
with the outcome of the predicate on these rows, and it moves through both walks without going back.
If the keys increase along both walks it also finds every such pair: the group that is left behind
has a key below all keys still ahead on the other side. -/

namespace SortMerge

variable {p : Plan} {params : List Scalar} {left right : Tile}

@[simp] theorem Match.mem_pairs {m : Match} {q : Nat × Nat} :
    q ∈ m.pairs ↔ q.1 ∈ m.left.rows ∧ q.2 ∈ m.right.rows := by
  obtain ⟨l, r⟩ := q
  simp [Match.pairs]

/-- The first rows of the two groups have equal keys, and the predicate decided about them. -/
structure IsMatch (p : Plan) (params : List Scalar) (left right : Tile) (m : Match) : Prop where
  same : pairOrder p.clauses (left.row m.left.first) (right.row m.right.first) = .ok .eq
  judged : p.accepts params (left.row m.left.first) (right.row m.right.first) = .ok m.kept

/-! ## Soundness and order -/

theorem isMatch_of_mem_mergeGroups {gs hs : Trail (Option ExprError) Group} {m : Match}
    (hm : m ∈ (p.mergeGroups params left right gs hs).toList) :
    m.left ∈ gs.toList ∧ m.right ∈ hs.toList ∧ IsMatch p params left right m := by
  fun_induction Plan.mergeGroups p params left right gs hs with
  | case1 | case2 | case3 | case4 | case5 | case8 => cases hm
  | case6 g gs h hs l r hlt ih =>
      obtain ⟨hl, hr, hmatch⟩ := ih hm
      exact ⟨List.mem_cons_of_mem _ hl, hr, hmatch⟩
  | case7 g gs h hs l r hgt ih =>
      obtain ⟨hl, hr, hmatch⟩ := ih hm
      exact ⟨hl, List.mem_cons_of_mem _ hr, hmatch⟩
  | case9 g gs h hs l r heq kept hkept ih =>
      rw [Trail.toList, List.mem_cons] at hm
      rcases hm with rfl | hm
      · exact ⟨List.mem_cons_self, List.mem_cons_self, heq, hkept⟩
      · obtain ⟨hl, hr, hmatch⟩ := ih hm
        exact ⟨List.mem_cons_of_mem _ hl, List.mem_cons_of_mem _ hr, hmatch⟩

/-- What holds between earlier and later groups of both walks holds between earlier and later
    matches. -/
theorem mergeGroups_pairwise {R : Group → Group → Prop} {gs hs : Trail (Option ExprError) Group}
    (hgs : gs.toList.Pairwise R) (hhs : hs.toList.Pairwise R) :
    (p.mergeGroups params left right gs hs).toList.Pairwise
      fun m m' => R m.left m'.left ∧ R m.right m'.right := by
  fun_induction Plan.mergeGroups p params left right gs hs with
  | case1 | case2 | case3 | case4 | case5 | case8 => exact List.Pairwise.nil
  | case6 g gs h hs l r hlt ih => exact ih (List.pairwise_cons.1 hgs).2 hhs
  | case7 g gs h hs l r hgt ih => exact ih hgs (List.pairwise_cons.1 hhs).2
  | case9 g gs h hs l r heq kept hkept ih =>
      rw [Trail.toList, List.pairwise_cons] at hgs hhs ⊢
      refine ⟨fun m hm => ?_, ih hgs.2 hhs.2⟩
      obtain ⟨hl, hr, _⟩ := isMatch_of_mem_mergeGroups hm
      exact ⟨hgs.1 _ hl, hhs.1 _ hr⟩

/-! ## Completeness -/

/-- The keys `lkey` and `rkey` of the groups of two walks: they order the walks strictly and decide
    every comparison across them. -/
structure OrderedWalks (p : Plan) (left right : Tile) (lkey rkey : Group → List Scalar)
    (gs hs : List Group) : Prop where
  left_lt : gs.Pairwise fun g g' => compareKeys (lkey g) (lkey g') = .lt
  right_lt : hs.Pairwise fun h h' => compareKeys (rkey h) (rkey h') = .lt
  across : ∀ g ∈ gs, ∀ h ∈ hs, pairOrder p.clauses (left.row g.first) (right.row h.first)
    = .ok (compareKeys (lkey g) (rkey h))

namespace OrderedWalks

variable {lkey rkey : Group → List Scalar} {g h : Group} {gs hs : List Group}

theorem tail_left (ho : OrderedWalks p left right lkey rkey (g :: gs) hs) :
    OrderedWalks p left right lkey rkey gs hs :=
  ⟨(List.pairwise_cons.1 ho.left_lt).2, ho.right_lt,
    fun g' hg' => ho.across g' (List.mem_cons_of_mem _ hg')⟩

theorem tail_right (ho : OrderedWalks p left right lkey rkey gs (h :: hs)) :
    OrderedWalks p left right lkey rkey gs hs :=
  ⟨ho.left_lt, (List.pairwise_cons.1 ho.right_lt).2,
    fun g' hg' h' hh' => ho.across g' hg' h' (List.mem_cons_of_mem _ hh')⟩

/-- The current left group is below the current right one, hence below all right groups ahead. -/
theorem ne_eq_of_lt (ho : OrderedWalks p left right lkey rkey (g :: gs) (h :: hs))
    (hlt : compareKeys (lkey g) (rkey h) = .lt) {h' : Group} (hh' : h' ∈ h :: hs) :
    compareKeys (lkey g) (rkey h') ≠ .eq := by
  rcases List.mem_cons.1 hh' with rfl | hh'
  · simp [hlt]
  · simp [Std.TransCmp.lt_trans hlt ((List.pairwise_cons.1 ho.right_lt).1 h' hh')]

/-- The current right group is below the current left one, hence below all left groups ahead. -/
theorem ne_eq_of_gt (ho : OrderedWalks p left right lkey rkey (g :: gs) (h :: hs))
    (hgt : compareKeys (lkey g) (rkey h) = .gt) {g' : Group} (hg' : g' ∈ g :: gs) :
    compareKeys (lkey g') (rkey h) ≠ .eq := by
  rcases List.mem_cons.1 hg' with rfl | hg'
  · simp [hgt]
  · have hahead := Std.OrientedCmp.gt_of_lt ((List.pairwise_cons.1 ho.left_lt).1 g' hg')
    simp [Std.TransCmp.gt_trans hahead hgt]

/-- Groups with equal keys match each other and nothing that is ahead. -/
theorem eq_heads_of_eq (ho : OrderedWalks p left right lkey rkey (g :: gs) (h :: hs))
    (heq : compareKeys (lkey g) (rkey h) = .eq) {g' h' : Group} (hg' : g' ∈ g :: gs)
    (hh' : h' ∈ h :: hs) (heq' : compareKeys (lkey g') (rkey h') = .eq) :
    (g' = g ∧ h' = h) ∨ (g' ∈ gs ∧ h' ∈ hs) := by
  rcases List.mem_cons.1 hg' with rfl | hg'
  · rcases List.mem_cons.1 hh' with rfl | hh'
    · exact .inl ⟨rfl, rfl⟩
    · have hahead := (List.pairwise_cons.1 ho.right_lt).1 h' hh'
      rw [Std.TransCmp.lt_of_eq_of_lt heq hahead] at heq'
      cases heq'
  · rcases List.mem_cons.1 hh' with rfl | hh'
    · have hahead := Std.OrientedCmp.gt_of_lt ((List.pairwise_cons.1 ho.left_lt).1 g' hg')
      rw [Std.TransCmp.gt_of_gt_of_eq hahead heq] at heq'
      cases heq'
    · exact .inr ⟨hg', hh'⟩

end OrderedWalks

variable {lkey rkey : Group → List Scalar} {gs hs : Trail (Option ExprError) Group}

/-- A merge of ordered walks that ends well has found every pair of groups with equal keys. -/
theorem exists_match_of_compareKeys_eq
    (ho : OrderedWalks p left right lkey rkey gs.toList hs.toList)
    (hending : (p.mergeGroups params left right gs hs).ending = none) {g' h' : Group}
    (hg' : g' ∈ gs.toList) (hh' : h' ∈ hs.toList)
    (hkeys : compareKeys (lkey g') (rkey h') = .eq) :
    ∃ m ∈ (p.mergeGroups params left right gs hs).toList, m.left = g' ∧ m.right = h' := by
  fun_induction Plan.mergeGroups p params left right gs hs with
  | case1 | case3 => cases hg'
  | case2 | case4 => cases hh'
  | case5 | case8 => cases hending
  | case6 g gs h hs l r hlt ih =>
      rw [ho.across g List.mem_cons_self h List.mem_cons_self, Except.ok.injEq] at hlt
      -- the left group is passed for good, but no right group ahead has its key
      rcases List.mem_cons.1 hg' with rfl | hg'
      · exact absurd hkeys (ho.ne_eq_of_lt hlt hh')
      · exact ih ho.tail_left hending hg' hh'
  | case7 g gs h hs l r hgt ih =>
      rw [ho.across g List.mem_cons_self h List.mem_cons_self, Except.ok.injEq] at hgt
      rcases List.mem_cons.1 hh' with rfl | hh'
      · exact absurd hkeys (ho.ne_eq_of_gt hgt hg')
      · exact ih ho.tail_right hending hg' hh'
  | case9 g gs h hs l r heq kept hkept ih =>
      rw [ho.across g List.mem_cons_self h List.mem_cons_self, Except.ok.injEq] at heq
      rcases ho.eq_heads_of_eq heq hg' hh' hkeys with ⟨rfl, rfl⟩ | ⟨hg', hh'⟩
      · exact ⟨_, List.mem_cons_self, rfl, rfl⟩
      · obtain ⟨m, hm, hsides⟩ := ih ho.tail_left.tail_right hending hg' hh'
        exact ⟨m, List.mem_cons_of_mem _ hm, hsides⟩

/-- A merge of ordered walks ends well if both walks do and the predicate has an outcome on every
    pair of groups with equal keys. -/
theorem mergeGroups_ending_eq_none
    (ho : OrderedWalks p left right lkey rkey gs.toList hs.toList) (hgs : gs.ending = none)
    (hhs : hs.ending = none)
    (hjudged : ∀ g ∈ gs.toList, ∀ h ∈ hs.toList, compareKeys (lkey g) (rkey h) = .eq →
      ∃ kept, p.accepts params (left.row g.first) (right.row h.first) = .ok kept) :
    (p.mergeGroups params left right gs hs).ending = none := by
  fun_induction Plan.mergeGroups p params left right gs hs with
  | case1 => cases hgs
  | case2 => cases hhs
  | case3 | case4 => rfl
  | case5 g gs h hs l r e he =>
      rw [ho.across g List.mem_cons_self h List.mem_cons_self] at he
      cases he
  | case6 g gs h hs l r hlt ih =>
      exact ih ho.tail_left hgs hhs fun g' hg' => hjudged g' (List.mem_cons_of_mem _ hg')
  | case7 g gs h hs l r hgt ih =>
      exact ih ho.tail_right hgs hhs fun g' hg' h' hh' =>
        hjudged g' hg' h' (List.mem_cons_of_mem _ hh')
  | case8 g gs h hs l r heq e he =>
      rw [ho.across g List.mem_cons_self h List.mem_cons_self, Except.ok.injEq] at heq
      obtain ⟨kept, hkept⟩ := hjudged g List.mem_cons_self h List.mem_cons_self heq
      rw [hkept] at he
      cases he
  | case9 g gs h hs l r heq kept hkept ih =>
      exact ih ho.tail_left.tail_right hgs hhs fun g' hg' h' hh' =>
        hjudged g' (List.mem_cons_of_mem _ hg') h' (List.mem_cons_of_mem _ hh')

end SortMerge

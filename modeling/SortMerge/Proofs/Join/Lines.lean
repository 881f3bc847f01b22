import SortMerge.Proofs.Join.Pair
import SortMerge.Proofs.Tile.Whole

set_option autoImplicit false

/-! # Joins of lines

The nested-loop join of two tiles depends on the lines of the tiles alone: the values side by side in
each row. Here it is a function of two lists of lines, which can be taken apart where a tile cannot.
If two blocks of lines have no key in common, neither inside one side nor across the sides, then the
join of what stands one after the other is the joins one after the other: equal keys meet in their
own block, and the first line that has a key is the same in the block and in the whole. -/

namespace SortMerge

/-- A line as an expression sees it. -/
def Row.ofLine (l : Line) : Row := ⟨0, l.length, fun c => l[c]?.join⟩

theorem Tile.alike_line (t : Tile) (i : Nat) : (Row.ofLine (t.line i)).Alike (t.row i) := by
  refine ⟨t.length_line i, funext fun c => ?_⟩
  by_cases hc : c < t.columnCount
  · simp [Row.ofLine, row, line, hc]
  · have hnone : t.columns[c]? = none := List.getElem?_eq_none (Nat.le_of_not_lt hc)
    simp [Row.ofLine, row, line, hc, value_eq, hnone]

/-! ## Keys and predicates -/

theorem Clause.key_congr (c : Clause) (side : Side) {a b : Row} (h : a.Alike b) :
    c.key side a = c.key side b := by
  refine Expr.eval_congr _ (fun r _ => ?_) fun i hi => rfl
  cases r.1 <;> exact h

theorem keyOrder_congr (clauses : List Clause) (side : Side) {a a' b b' : Row} (ha : a.Alike a')
    (hb : b.Alike b') : keyOrder clauses side a b = keyOrder clauses side a' b' :=
  orderBy_congr (fun c _ => c.key_congr side ha) (fun c _ => c.key_congr side hb)

theorem sameKey_congr (clauses : List Clause) (s s' : Side) {a a' b b' : Row} (ha : a.Alike a')
    (hb : b.Alike b') : sameKey clauses s a s' b = sameKey clauses s a' s' b' := by
  simp only [sameKey, fun c : Clause => c.key_congr s ha, fun c : Clause => c.key_congr s' hb]

theorem Plan.accepts_congr (p : Plan) (params : List Scalar) {l l' r r' : Row} (hl : l.Alike l')
    (hr : r.Alike r') : p.accepts params l r = p.accepts params l' r' := by
  rw [Plan.accepts, Plan.accepts]
  cases p.predicate with
  | none => rfl
  | some e =>
      have heval : e.eval ⟨l, r, params⟩ = e.eval ⟨l', r', params⟩ := by
        refine Expr.eval_congr _ (fun c _ => ?_) fun i _ => rfl
        cases c.1
        · exact hl
        · exact hr
      simp only [heval]

/-! ## The join of two lists of lines -/

/-- Whether two lines, each of the side that is named before it, have equal keys. -/
def sameLineKey (clauses : List Clause) (s : Side) (a : Line) (s' : Side) (b : Line) : Bool :=
  sameKey clauses s (.ofLine a) s' (.ofLine b)

/-- The first of the lines that has the key of the given one. -/
def firstLine (clauses : List Clause) (side : Side) (ls : List Line) (l : Line) : Line :=
  (ls.find? fun k => sameLineKey clauses side k side l).getD l

namespace Plan

/-- The outcome of the predicate on the first lines that have the keys of the given two. -/
def judgeLines (p : Plan) (params : List Scalar) (ls rs : List Line) (l r : Line) :
    Except ExprError Bool :=
  p.accepts params (.ofLine (firstLine p.clauses .left ls l))
    (.ofLine (firstLine p.clauses .right rs r))

/-- The right lines that a left line is joined with. -/
def partners (p : Plan) (params : List Scalar) (ls rs : List Line) (l : Line) : List Line :=
  rs.filter fun r =>
    sameLineKey p.clauses .left l .right r
      && decide (p.judgeLines params ls rs l r = .ok true)

/-- The nested-loop join of lines. -/
def joinLines (p : Plan) (params : List Scalar) (ls rs : List Line) : List Line :=
  ls.flatMap fun l => (p.partners params ls rs l).map (l ++ ·)

/-- The predicate has an outcome on all lines with equal keys. -/
def Judged (p : Plan) (params : List Scalar) (ls rs : List Line) : Prop :=
  ∀ l ∈ ls, ∀ r ∈ rs, sameLineKey p.clauses .left l .right r = true →
    ∃ kept, p.judgeLines params ls rs l r = .ok kept

end Plan

/-! ## Lines of tiles -/

section Tiles

variable {p : Plan} {params : List Scalar} {left right t : Tile} {clauses : List Clause}
  {side : Side}

theorem sameLineKey_line (s s' : Side) (t t' : Tile) (i k : Nat) :
    sameLineKey clauses s (t.line i) s' (t'.line k) = sameKey clauses s (t.row i) s' (t'.row k) :=
  sameKey_congr clauses s s' (t.alike_line i) (t'.alike_line k)

theorem firstLine_line (i : Nat) :
    firstLine clauses side t.lines (t.line i) = t.line (firstWithKey clauses side t i) := by
  rw [firstLine, firstWithKey, Tile.lines, List.find?_map]
  simp only [Function.comp_def, sameLineKey_line]
  cases List.find? _ _ <;> rfl

theorem judgeLines_line (q : Nat × Nat) :
    p.judgeLines params left.lines right.lines (left.line q.1) (right.line q.2)
      = p.judge params left right q := by
  rw [Plan.judgeLines, Plan.judge, firstLine_line, firstLine_line]
  exact p.accepts_congr params (left.alike_line _) (right.alike_line _)

/-- The lines that the nested-loop join of two tiles pairs are the join of the lines. -/
theorem nestedLoop_map_line :
    (p.nestedLoop params left right).map (fun q => left.line q.1 ++ right.line q.2)
      = p.joinLines params left.lines right.lines := by
  rw [Plan.nestedLoop, rowPairs, List.filter_flatMap, List.map_flatMap, Plan.joinLines, Tile.lines,
    List.flatMap_map]
  refine List.flatMap_congr fun l _ => ?_
  rw [Plan.partners, Tile.lines, List.filter_map, List.filter_map, List.map_map, List.map_map]
  simp only [Function.comp_def, sameLineKey_line]
  congr 1
  refine List.filter_congr fun r _ => ?_
  have hjudge : p.judgeLines params left.lines right.lines (left.line l) (right.line r)
      = p.judge params left right (l, r) := judgeLines_line (l, r)
  rw [← hjudge]
  rfl

theorem hasKeys_iff_lines :
    HasKeys clauses side t ↔
      ∀ l ∈ t.lines, ∀ c ∈ clauses, ∃ v, c.key side (.ofLine l) = .ok v := by
  simp only [Tile.lines, List.forall_mem_map, List.mem_range, HasKeys,
    fun (c : Clause) (i : Nat) => c.key_congr side (t.alike_line i)]

theorem sortedOn_iff_lines (h : HasKeys clauses side t) :
    SortedOn clauses side t ↔
      t.lines.Pairwise fun a b => keyOrder clauses side (.ofLine a) (.ofLine b) ≠ .ok .gt := by
  rw [← not_hasInversion_iff h, Tile.lines, List.pairwise_map, List.pairwise_iff_getElem]
  simp only [List.length_range, List.getElem_range,
    fun i k => keyOrder_congr clauses side (t.alike_line i) (t.alike_line k)]
  constructor
  · intro hnone i k _ hk hik hgt
    exact hnone ⟨i, k, hik, hk, hgt⟩
  · rintro hall ⟨i, k, hik, hk, hgt⟩
    exact hall i k (by omega) hk hik hgt

/-- Merging sorted tiles goes through exactly if the predicate has an outcome on all lines with
    equal keys. -/
theorem SortedInputs.ending_eq_none_iff_judged (h : SortedInputs p left right) :
    (p.merge params left right).ending = none ↔ p.Judged params left.lines right.lines := by
  constructor
  · intro hok a ha b hb hsame
    obtain ⟨l, hl, rfl⟩ := Tile.mem_lines.1 ha
    obtain ⟨r, hr, rfl⟩ := Tile.mem_lines.1 hb
    rw [sameLineKey_line] at hsame
    obtain ⟨m, hm, hlm, hrm⟩ := h.exists_match hok hl hr hsame
    refine ⟨m.kept, ?_⟩
    rw [judgeLines_line (q := (l, r))]
    exact (h.covers_of_mem_rows hm hlm hrm).judged
  · intro hjudged
    rw [h.ending_eq_none_iff]
    intro q hq
    obtain ⟨⟨hl, hr⟩, ⟨hsame, -⟩, -⟩ := Plan.mem_sharedKeys.1 hq
    rw [← sameLineKey_line] at hsame
    rw [← judgeLines_line]
    exact hjudged _ (Tile.mem_lines.2 ⟨_, hl, rfl⟩) _ (Tile.mem_lines.2 ⟨_, hr, rfl⟩) hsame

end Tiles

/-! ## Lines of outputs -/

namespace Tile.ShowsPairs

variable {t left right : Tile} {pairs : List (Nat × Nat)} (h : t.ShowsPairs left right pairs)
include h

/-- A row of the output is the left row and the right row side by side. -/
theorem line_eq {k : Nat} {q : Nat × Nat} (hq : pairs[k]? = some q) :
    t.line k = left.line q.1 ++ right.line q.2 := by
  rw [line, h.columns, List.range_add, List.map_append, List.map_map]
  congr 1
  · refine List.map_congr_left fun c hc => ?_
    exact h.leftValues k q hq c (List.mem_range.1 hc)
  · refine List.map_congr_left fun c hc => ?_
    exact h.rightValues k q hq c (List.mem_range.1 hc)

theorem lines_eq : t.lines = pairs.map fun q => left.line q.1 ++ right.line q.2 := by
  rw [lines, h.rows]
  refine List.ext_getElem (by simp) fun k hk _ => ?_
  have hlt : k < pairs.length := by simpa using hk
  rw [List.getElem_map, List.getElem_range, List.getElem_map]
  exact h.line_eq (List.getElem?_eq_getElem hlt)

end Tile.ShowsPairs

/-- Sorted tiles pass the checks, whatever the settings ask for. -/
theorem Join.checkPair_of_sorted {j : Join} {left right : Tile}
    (h : KeyedInputs j.plan left right) (hsorted : SortedInputs j.plan left right) :
    j.checkPair left right = .ok () := by
  have hleft := (not_hasInversion_iff h.leftKeys).2 hsorted.leftSorted
  have hright := (not_hasInversion_iff h.rightKeys).2 hsorted.rightSorted
  rw [checkPair, checkInput_eq_ok .left h.leftCheck h.leftColumns,
    checkInput_eq_ok .right h.rightCheck h.rightColumns, checkSorted_eq_ok h.leftKeys hleft,
    checkSorted_eq_ok h.rightKeys hright]
  simp

/-- Joining a pair of sorted tiles gives a result exactly if the predicate has an outcome on all
    lines with equal keys, and then it shows the join of the lines. -/
theorem Join.outcome_of_sorted {j : Join} {left right : Tile}
    (h : KeyedInputs j.plan left right) (hsorted : SortedInputs j.plan left right) :
    ((∃ out, j.outcome left right = .ok out) ↔ j.plan.Judged j.params left.lines right.lines) ∧
      ∀ out, j.outcome left right = .ok out →
        out.toList.flatMap Tile.lines = j.plan.joinLines j.params left.lines right.lines := by
  have hcheck := checkPair_of_sorted h hsorted
  constructor
  · rw [← hsorted.ending_eq_none_iff_judged]
    cases hending : (j.plan.merge j.params left right).ending with
    | some e =>
        rw [outcome, joinPair_of_ending_some hcheck hending]
        simp
    | none =>
        rcases outcome_of_ending_none hcheck hending with ⟨-, hout⟩ | ⟨-, t, hout, -⟩
        · exact ⟨fun _ => rfl, fun _ => ⟨none, hout⟩⟩
        · exact ⟨fun _ => rfl, fun _ => ⟨some t, hout⟩⟩
  · intro out hout
    rw [← nestedLoop_map_line]
    rcases joinPair_eq_ok_of_sorted h hsorted hout with ⟨hnil, rfl⟩ | ⟨-, t, rfl, hshows⟩
    · rw [hnil]
      rfl
    · rw [Option.toList_some, List.flatMap_singleton, hshows.lines_eq]

/-! ## Blocks -/

/-- Left and right lines that belong together. -/
abbrev Block := List Line × List Line

/-- Every line has its own key, that is, a value for each clause. -/
def Block.Keyed (clauses : List Clause) (b : Block) : Prop :=
  ∀ s : Side, ∀ a ∈ s.pick b.1 b.2, sameLineKey clauses s a s a = true

/-- No line of one block has the key of a line of the other one, on whatever sides they stand. -/
def Block.Apart (clauses : List Clause) (b b' : Block) : Prop :=
  ∀ s s' : Side, ∀ a ∈ s.pick b.1 b.2, ∀ a' ∈ s'.pick b'.1 b'.2,
    sameLineKey clauses s a s' a' = false

/-- The lines of two blocks, those of the second one behind those of the first one. -/
def Block.append (b b' : Block) : Block := (b.1 ++ b'.1, b.2 ++ b'.2)

/-- All left lines of some blocks and all right lines. -/
def Block.concat (bs : List Block) : Block := (bs.flatMap Prod.fst, bs.flatMap Prod.snd)

theorem sameLineKey_comm {clauses : List Clause} (s s' : Side) (a b : Line) :
    sameLineKey clauses s a s' b = sameLineKey clauses s' b s a := by
  rw [Bool.eq_iff_iff]
  exact ⟨sameKey_symm, sameKey_symm⟩

namespace Block

variable {p : Plan} {params : List Scalar} {b b' : Block}

section FirstLine

variable {clauses : List Clause} {s : Side} {ls ls' : List Line} {a : Line}

/-- A line that has a key finds the first line with it in its own block. -/
theorem firstLine_append_left (ha : a ∈ ls) (hself : sameLineKey clauses s a s a = true) :
    firstLine clauses s (ls ++ ls') a = firstLine clauses s ls a := by
  rw [firstLine, firstLine, List.find?_append]
  cases hfind : ls.find? fun k => sameLineKey clauses s k s a with
  | none => exact absurd hself (List.find?_eq_none.1 hfind a ha)
  | some k => rfl

theorem firstLine_append_right (hapart : ∀ k ∈ ls, sameLineKey clauses s k s a = false) :
    firstLine clauses s (ls ++ ls') a = firstLine clauses s ls' a := by
  have hnone : (ls.find? fun k => sameLineKey clauses s k s a) = none := by
    rw [List.find?_eq_none]
    intro k hk
    simp [hapart k hk]
  rw [firstLine, firstLine, List.find?_append, hnone, Option.none_or]

end FirstLine

section Append

variable (hkeyed : b.Keyed p.clauses) (hapart : b.Apart p.clauses b')

include hkeyed in
/-- Lines of the first block are judged in it as in both blocks together. -/
theorem judgeLines_append_left {l r : Line} (hl : l ∈ b.1) (hr : r ∈ b.2) :
    p.judgeLines params (b.append b').1 (b.append b').2 l r = p.judgeLines params b.1 b.2 l r := by
  rw [Plan.judgeLines, Plan.judgeLines, append,
    firstLine_append_left hl (hkeyed .left l hl), firstLine_append_left hr (hkeyed .right r hr)]

include hapart in
theorem judgeLines_append_right {l r : Line} (hl : l ∈ b'.1) (hr : r ∈ b'.2) :
    p.judgeLines params (b.append b').1 (b.append b').2 l r
      = p.judgeLines params b'.1 b'.2 l r := by
  have hleft : firstLine p.clauses .left (b.1 ++ b'.1) l = firstLine p.clauses .left b'.1 l :=
    firstLine_append_right fun k hk => hapart .left .left k hk l hl
  have hright : firstLine p.clauses .right (b.2 ++ b'.2) r = firstLine p.clauses .right b'.2 r :=
    firstLine_append_right fun k hk => hapart .right .right k hk r hr
  rw [Plan.judgeLines, Plan.judgeLines, append, hleft, hright]

include hapart in
theorem sameLineKey_of_mem_right {l r : Line} (hl : l ∈ b'.1) (hr : r ∈ b.2) :
    sameLineKey p.clauses .left l .right r = false := by
  rw [sameLineKey_comm]
  exact hapart .right .left r hr l hl

include hkeyed hapart in
/-- A left line of the first block finds its partners there. -/
theorem partners_append_left {l : Line} (hl : l ∈ b.1) :
    p.partners params (b.append b').1 (b.append b').2 l = p.partners params b.1 b.2 l := by
  rw [Plan.partners, show (b.append b').2 = b.2 ++ b'.2 from rfl, List.filter_append]
  have hnone : (b'.2.filter fun r => sameLineKey p.clauses .left l .right r
      && decide (p.judgeLines params (b.append b').1 (b.2 ++ b'.2) l r = .ok true)) = [] := by
    rw [List.filter_eq_nil_iff]
    intro r hr
    simp [hapart .left .right l hl r hr]
  rw [hnone, List.append_nil, Plan.partners]
  refine List.filter_congr fun r hr => ?_
  rw [← judgeLines_append_left hkeyed hl hr]
  rfl

include hapart in
theorem partners_append_right {l : Line} (hl : l ∈ b'.1) :
    p.partners params (b.append b').1 (b.append b').2 l = p.partners params b'.1 b'.2 l := by
  rw [Plan.partners, show (b.append b').2 = b.2 ++ b'.2 from rfl, List.filter_append]
  have hnone : (b.2.filter fun r => sameLineKey p.clauses .left l .right r
      && decide (p.judgeLines params (b.append b').1 (b.2 ++ b'.2) l r = .ok true)) = [] := by
    rw [List.filter_eq_nil_iff]
    intro r hr
    simp [sameLineKey_of_mem_right hapart hl hr]
  rw [hnone, List.nil_append, Plan.partners]
  refine List.filter_congr fun r hr => ?_
  rw [← judgeLines_append_right hapart hl hr]
  rfl

include hkeyed hapart in
/-- The join of two blocks without a key in common is the joins of both, one after the other. -/
theorem joinLines_append :
    p.joinLines params (b.append b').1 (b.append b').2
      = p.joinLines params b.1 b.2 ++ p.joinLines params b'.1 b'.2 := by
  rw [Plan.joinLines, show (b.append b').1 = b.1 ++ b'.1 from rfl, List.flatMap_append]
  congr 1
  · refine List.flatMap_congr fun l hl => ?_
    rw [← partners_append_left hkeyed hapart hl]
    rfl
  · refine List.flatMap_congr fun l hl => ?_
    rw [← partners_append_right hapart hl]
    rfl

include hkeyed hapart in
theorem judged_append (h : p.Judged params b.1 b.2) (h' : p.Judged params b'.1 b'.2) :
    p.Judged params (b.append b').1 (b.append b').2 := by
  intro l hl r hr hsame
  rcases List.mem_append.1 hl with hl | hl
  · rcases List.mem_append.1 hr with hr | hr
    · rw [judgeLines_append_left hkeyed hl hr]
      exact h l hl r hr hsame
    · rw [hapart .left .right l hl r hr] at hsame
      cases hsame
  · rcases List.mem_append.1 hr with hr | hr
    · rw [sameLineKey_of_mem_right hapart hl hr] at hsame
      cases hsame
    · rw [judgeLines_append_right hapart hl hr]
      exact h' l hl r hr hsame

end Append

theorem concat_cons (b : Block) (bs : List Block) : concat (b :: bs) = b.append (concat bs) := rfl

/-- A block that is apart from each of some blocks is apart from them together. -/
theorem apart_concat {clauses : List Clause} {bs : List Block}
    (h : ∀ b' ∈ bs, b.Apart clauses b') : b.Apart clauses (concat bs) := by
  intro s s' a ha a' ha'
  have hmem : ∃ b' ∈ bs, a' ∈ s'.pick b'.1 b'.2 := by
    cases s' <;> exact List.mem_flatMap.1 ha'
  obtain ⟨b', hb', hin⟩ := hmem
  exact h b' hb' s s' a ha a' hin

/-- Joining blocks without keys in common line by line is joining them block by block. -/
theorem joinLines_concat {bs : List Block} (hkeyed : ∀ b ∈ bs, b.Keyed p.clauses)
    (hapart : bs.Pairwise (Apart p.clauses)) :
    p.joinLines params (concat bs).1 (concat bs).2
      = bs.flatMap fun b => p.joinLines params b.1 b.2 := by
  induction bs with
  | nil => rfl
  | cons b bs ih =>
      obtain ⟨hhead, htail⟩ := List.forall_mem_cons.1 hkeyed
      obtain ⟨hfirst, hrest⟩ := List.pairwise_cons.1 hapart
      rw [concat_cons, joinLines_append hhead (apart_concat hfirst), ih htail hrest,
        List.flatMap_cons]

theorem judged_concat {bs : List Block} (hkeyed : ∀ b ∈ bs, b.Keyed p.clauses)
    (hapart : bs.Pairwise (Apart p.clauses)) (h : ∀ b ∈ bs, p.Judged params b.1 b.2) :
    p.Judged params (concat bs).1 (concat bs).2 := by
  induction bs with
  | nil =>
      intro l hl
      cases hl
  | cons b bs ih =>
      obtain ⟨hhead, htail⟩ := List.forall_mem_cons.1 hkeyed
      obtain ⟨hfirst, hrest⟩ := List.pairwise_cons.1 hapart
      obtain ⟨hjudged, hothers⟩ := List.forall_mem_cons.1 h
      rw [concat_cons]
      exact judged_append hhead (apart_concat hfirst) hjudged (ih htail hrest hothers)

end Block

end SortMerge

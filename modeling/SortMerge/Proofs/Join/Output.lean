import Mathlib.Data.List.GetD
import SortMerge.Join.Merge
import SortMerge.Proofs.Join.Merge
import SortMerge.Proofs.Tile.Resolution

set_option autoImplicit false

/-! # What an output tile shows

As long as only rows of sound inputs are paired, the output of a join is a sound tile with one row
for each pair, and each of its columns shows what the input column shows in the row that the pair
names. The columns of the right input find their lists because they are shifted by the number of
left *lists*, which need not be the number of left columns. -/

namespace SortMerge

/-- The tile has a row for each of the given pairs of rows of two inputs, in order, which shows the
    left row and then the right one. -/
structure Tile.ShowsPairs (t left right : Tile) (pairs : List (Nat × Nat)) : Prop where
  rows : t.rowCount = pairs.length
  columns : t.columnCount = left.columnCount + right.columnCount
  leftValues : ∀ k q, pairs[k]? = some q → ∀ c < left.columnCount,
    t.value c k = left.value c q.1
  rightValues : ∀ k q, pairs[k]? = some q → ∀ c < right.columnCount,
    t.value (left.columnCount + c) k = right.value c q.2

namespace Output

/-! ## Pairs of existing rows -/

/-- Only rows of the inputs are paired. -/
def Within (o : Output) : Prop := ∀ q ∈ o.pairs, q.1 < o.left.rowCount ∧ q.2 < o.right.rowCount

/-- Output to which several products of ranges of rows have been added. -/
def ofProducts (left right : Tile) (products : List (Group × Group)) : Output :=
  products.foldl (fun o g => o.appendProduct g.1 g.2) (.empty left right)

/-- The pairs of rows in some products, the left row varying slowest in each. -/
def productPairs (products : List (Group × Group)) : List (Nat × Nat) :=
  products.flatMap fun g => g.1.rows.flatMap fun l => g.2.rows.map fun r => (l, r)

@[simp] theorem append_left (o : Output) (ps : List (Nat × Nat)) :
    (o.append ps).left = o.left := rfl

@[simp] theorem append_right (o : Output) (ps : List (Nat × Nat)) :
    (o.append ps).right = o.right := rfl

@[simp] theorem append_pairs (o : Output) (ps : List (Nat × Nat)) :
    (o.append ps).pairs = o.pairs ++ ps := rfl

theorem within_empty (left right : Tile) : (empty left right).Within := by
  intro q hq
  cases hq

theorem Within.append {o : Output} (h : o.Within) {ps : List (Nat × Nat)}
    (hps : ∀ q ∈ ps, q.1 < o.left.rowCount ∧ q.2 < o.right.rowCount) : (o.append ps).Within := by
  intro q hq
  rcases List.mem_append.1 hq with hq | hq
  · exact h q hq
  · exact hps q hq

/-- A product of ranges inside the row counts pairs rows of the inputs only. -/
theorem Within.appendProduct {o : Output} (h : o.Within) {l r : Group}
    (hl : l.stop ≤ o.left.rowCount) (hr : r.stop ≤ o.right.rowCount) :
    (o.appendProduct l r).Within := by
  refine h.append fun q hq => ?_
  rw [Match.mem_pairs, Group.mem_rows, Group.mem_rows] at hq
  exact ⟨Nat.lt_of_lt_of_le hq.1.2 hl, Nat.lt_of_lt_of_le hq.2.2 hr⟩

/-- Adding products one after another keeps to the rows of the inputs. -/
theorem Within.foldl_appendProduct {products : List (Group × Group)} {o : Output} (ho : o.Within)
    (h : ∀ g ∈ products, g.1.stop ≤ o.left.rowCount ∧ g.2.stop ≤ o.right.rowCount) :
    (products.foldl (fun o g => o.appendProduct g.1 g.2) o).Within := by
  induction products generalizing o with
  | nil => exact ho
  | cons g products ih =>
      obtain ⟨hl, hr⟩ := h g List.mem_cons_self
      exact ih (ho.appendProduct hl hr) fun g' hg' => h g' (List.mem_cons_of_mem _ hg')

/-- Adding products one after another adds their pairs in order. -/
theorem foldl_appendProduct_eq (products : List (Group × Group)) (o : Output) :
    products.foldl (fun o g => o.appendProduct g.1 g.2) o = o.append (productPairs products) := by
  induction products generalizing o with
  | nil => simp [productPairs, Output.append]
  | cons g products ih =>
      rw [List.foldl_cons, ih, Output.append, Output.append, appendProduct, append_pairs,
        List.append_assoc]
      rfl

/-! ## The position lists -/

/-- Rearranging a list by rows that it has looks these rows up in it. -/
theorem getElem?_gather {src : List Nat} {pairs : List (Nat × Nat)} {f : Nat × Nat → Nat}
    {k : Nat} {q : Nat × Nat} (hq : pairs[k]? = some q) (hlt : f q < src.length) :
    (pairs.map fun p => src.getD (f p) 0)[k]? = src[f q]? := by
  rw [List.getElem?_map, hq, Option.map_some, List.getElem?_eq_getElem hlt,
    List.getD_eq_getElem _ _ hlt]

theorem mem_gather {src : List Nat} {pairs : List (Nat × Nat)} {f : Nat × Nat → Nat} {i : Nat}
    (hlt : ∀ q ∈ pairs, f q < src.length) (hi : i ∈ pairs.map fun p => src.getD (f p) 0) :
    i ∈ src := by
  obtain ⟨q, hq, rfl⟩ := List.mem_map.1 hi
  rw [List.getD_eq_getElem _ _ (hlt q hq)]
  exact List.getElem_mem _

theorem lists_getElem?_left (o : Output) {i : Nat} {src : List Nat}
    (h : o.left.lists[i]? = some src) :
    o.lists[i]? = some (o.pairs.map fun p => src.getD p.1 0) := by
  have hlt := (List.getElem?_eq_some_iff.1 h).1
  rw [lists, List.getElem?_append_left (by simpa using hlt), List.getElem?_map, h, Option.map_some]

theorem lists_getElem?_right (o : Output) {i : Nat} {src : List Nat}
    (h : o.right.lists[i]? = some src) :
    o.lists[i + o.left.lists.length]? = some (o.pairs.map fun p => src.getD p.2 0) := by
  rw [lists, List.getElem?_append_right (by simp), List.length_map, Nat.add_sub_cancel,
    List.getElem?_map, h, Option.map_some]

theorem length_of_mem_lists {o : Output} {positions : List Nat} (h : positions ∈ o.lists) :
    positions.length = o.pairs.length := by
  rw [lists, List.mem_append, List.mem_map, List.mem_map] at h
  rcases h with ⟨src, _, rfl⟩ | ⟨src, _, rfl⟩
  · exact List.length_map _
  · exact List.length_map _

/-- There is one row for each pair. Without any position list there are no rows to be paired. -/
theorem Within.rowCount_eq {o : Output} (h : o.Within) : o.rowCount = o.pairs.length := by
  rw [rowCount, draft, Tile.rowCount]
  split
  -- without position lists the left tile has no rows, so that nothing can have been paired
  · next hlists =>
      have hleft : o.left.lists = [] := List.map_eq_nil_iff.1 (List.append_eq_nil_iff.1 hlists).1
      have hzero := Tile.rowCount_eq_zero_of_lists hleft
      have hpairs : o.pairs = [] := by
        refine List.eq_nil_iff_forall_not_mem.2 fun q hq => ?_
        have hlt := (h q hq).1
        omega
      rw [hpairs, List.length_nil]
  · next positions rest hlists =>
      have hmem : positions ∈ o.lists := by
        rw [show o.lists = positions :: rest from hlists]
        exact List.mem_cons_self
      exact length_of_mem_lists hmem

/-! ## The finished tile -/

/-- A column of the right input, as it stands in the output. -/
def shifted (o : Output) (v : ColumnView) : ColumnView :=
  { v with list := v.list + o.left.lists.length }

theorem columns_getElem?_left (o : Output) {c : Nat} (hc : c < o.left.columnCount) :
    o.draft.columns[c]? = o.left.columns[c]? :=
  List.getElem?_append_left hc

theorem columns_getElem?_right (o : Output) (c : Nat) :
    o.draft.columns[o.left.columnCount + c]? = o.right.columns[c]?.map o.shifted := by
  rw [draft, columns, Tile.columnCount, List.getElem?_append_right (Nat.le_add_right _ _),
    Nat.add_sub_cancel_left, List.getElem?_map]
  rfl

section Within

variable {o : Output} (hleft : o.left.Sound) (hright : o.right.Sound) (h : o.Within)
include h

include hleft in
theorem fst_lt_length {src : List Nat} (hsrc : src ∈ o.left.lists) :
    ∀ q ∈ o.pairs, q.1 < src.length := by
  intro q hq
  rw [hleft.even src hsrc]
  exact (h q hq).1

include hright in
theorem snd_lt_length {src : List Nat} (hsrc : src ∈ o.right.lists) :
    ∀ q ∈ o.pairs, q.2 < src.length := by
  intro q hq
  rw [hright.even src hsrc]
  exact (h q hq).2

include hleft hright in
/-- Output whose pairs are rows of sound inputs is sound. -/
theorem draft_sound : o.draft.Sound := by
  refine ⟨fun positions hp => (length_of_mem_lists hp).trans h.rowCount_eq.symm, fun v hv => ?_⟩
  rw [draft, columns, List.mem_append, List.mem_map] at hv
  rcases hv with hv | ⟨w, hw, rfl⟩
  · obtain ⟨src, hsrc, horigin, hrows⟩ := hleft.resolves v hv
    have hlt := fst_lt_length hleft h (List.mem_of_getElem? hsrc)
    exact ⟨_, o.lists_getElem?_left hsrc, horigin, fun p hp => hrows p (mem_gather hlt hp)⟩
  · obtain ⟨src, hsrc, horigin, hrows⟩ := hright.resolves w hw
    have hlt := snd_lt_length hright h (List.mem_of_getElem? hsrc)
    exact ⟨_, o.lists_getElem?_right hsrc, horigin, fun p hp => hrows p (mem_gather hlt hp)⟩

include hleft hright in
/-- Finishing does not fail. It gives a tile unless there are no pairs. -/
theorem finish_eq : o.finish = .ok (if o.pairs = [] then none else some o.draft) := by
  rw [finish, h.rowCount_eq]
  by_cases hpairs : o.pairs = []
  · rw [if_pos hpairs, hpairs]
    rfl
  · rw [if_neg hpairs, if_neg (by simpa using hpairs),
      Tile.build?_eq_ok (draft_sound hleft hright h)]
    rfl

variable {k : Nat} {q : Nat × Nat} (hq : o.pairs[k]? = some q)
include hq

include hleft in
theorem draft_position_left {v : ColumnView} (hv : v ∈ o.left.columns) :
    o.draft.position v k = o.left.position v q.1 := by
  obtain ⟨src, hsrc, _, _⟩ := hleft.resolves v hv
  have hlt := fst_lt_length hleft h (List.mem_of_getElem? hsrc) q (List.mem_of_getElem? hq)
  rw [Tile.position, Tile.position, hsrc, draft, o.lists_getElem?_left hsrc]
  exact getElem?_gather (f := Prod.fst) hq hlt

include hright in
theorem draft_position_right {v : ColumnView} (hv : v ∈ o.right.columns) :
    o.draft.position (o.shifted v) k = o.right.position v q.2 := by
  obtain ⟨src, hsrc, _, _⟩ := hright.resolves v hv
  have hlt := snd_lt_length hright h (List.mem_of_getElem? hsrc) q (List.mem_of_getElem? hq)
  rw [Tile.position, Tile.position, hsrc, draft, shifted, o.lists_getElem?_right hsrc]
  exact getElem?_gather (f := Prod.snd) hq hlt

include hleft in
/-- A left column shows what it shows in the left row of the pair. -/
theorem draft_value_left {c : Nat} (hc : c < o.left.columnCount) :
    o.draft.value c k = o.left.value c q.1 := by
  rw [Tile.value_eq, Tile.value_eq, o.columns_getElem?_left hc]
  refine Option.bind_congr fun v hv => ?_
  rw [draft_position_left hleft h hq (List.mem_of_getElem? hv)]

include hright in
/-- A right column shows what it shows in the right row of the pair. -/
theorem draft_value_right (c : Nat) :
    o.draft.value (o.left.columnCount + c) k = o.right.value c q.2 := by
  rw [Tile.value_eq, Tile.value_eq, o.columns_getElem?_right, Option.bind_map]
  refine Option.bind_congr fun v hv => ?_
  rw [Function.comp_apply, draft_position_right hright h hq (List.mem_of_getElem? hv)]
  rfl

end Within

/-- The output shows its pairs. -/
theorem Within.showsPairs {o : Output} (hleft : o.left.Sound) (hright : o.right.Sound)
    (h : o.Within) : o.draft.ShowsPairs o.left o.right o.pairs := by
  refine ⟨h.rowCount_eq, ?_, fun k q hq c hc => draft_value_left hleft h hq hc,
    fun k q hq c _ => draft_value_right hright h hq c⟩
  rw [Tile.columnCount, draft, columns, List.length_append, List.length_map]
  rfl

/-- Pairs of rows of sound inputs finish without an error: there is no tile if there are no pairs,
    and otherwise a sound tile that shows them. -/
theorem finish_append_cases {left right : Tile} (hleft : left.Sound) (hright : right.Sound)
    {pairs : List (Nat × Nat)}
    (hpairs : ∀ q ∈ pairs, q.1 < left.rowCount ∧ q.2 < right.rowCount) :
    (pairs = [] ∧ ((empty left right).append pairs).finish = .ok none) ∨
      (pairs ≠ [] ∧ ∃ t, ((empty left right).append pairs).finish = .ok (some t) ∧ t.Sound ∧
        t.ShowsPairs left right pairs) := by
  have h := (within_empty left right).append hpairs
  rw [finish_eq hleft hright h]
  by_cases hnil : pairs = []
  · exact .inl ⟨hnil, by rw [if_pos (by simp [empty, hnil])]⟩
  · refine .inr ⟨hnil, _, by rw [if_neg (by simp [empty, hnil])], ?_, ?_⟩
    · exact draft_sound hleft hright h
    · exact h.showsPairs hleft hright

/-! ## Output of products -/

/-- Products of rows of two accepted tiles assemble without an error. There is no tile exactly if no
    rows were paired. Otherwise the tile is accepted too and shows all pairs, missing values
    included; its right columns name their lists after all left ones. -/
theorem finish_ofProducts {left right : Tile} (hleft : left.check = .ok ())
    (hright : right.check = .ok ()) {products : List (Group × Group)}
    (hwithin : ∀ g ∈ products, g.1.stop ≤ left.rowCount ∧ g.2.stop ≤ right.rowCount) :
    ((ofProducts left right products).finish = .ok none ↔ productPairs products = []) ∧
      (productPairs products ≠ [] → ∃ t,
        (ofProducts left right products).finish = .ok (some t) ∧ t.check = .ok () ∧
          t.ShowsPairs left right (productPairs products) ∧
          ∀ c v, right.columns[c]? = some v →
            t.columns[left.columnCount + c]?.map ColumnView.list
              = some (v.list + left.lists.length)) := by
  rw [Tile.check_eq_ok_iff] at hleft hright
  have h : (ofProducts left right products).Within :=
    (within_empty left right).foldl_appendProduct hwithin
  -- adding the products one by one is adding all their pairs at once
  rw [ofProducts, foldl_appendProduct_eq] at h ⊢
  have hpairs : ((empty left right).append (productPairs products)).pairs
      = productPairs products := List.nil_append _
  rw [finish_eq hleft hright h, hpairs]
  constructor
  · by_cases hnil : productPairs products = [] <;> simp [hnil]
  · intro hne
    rw [if_neg hne]
    refine ⟨_, rfl, (Tile.check_eq_ok_iff _).2 (draft_sound hleft hright h), ?_, ?_⟩
    · rw [← hpairs]
      exact h.showsPairs hleft hright
    · intro c v hv
      have hcolumn := columns_getElem?_right ((empty left right).append (productPairs products)) c
      rw [append_left, append_right, empty, hv] at hcolumn
      rw [empty, hcolumn]
      rfl

namespace Example

/-- Two columns over one of three lists; the second column is too short. -/
def left : Tile :=
  let base : Batch := ⟨[⟨"", [.int16 10, .int16 20, .int16 30]⟩, ⟨"", [.bool true]⟩]⟩
  ⟨[⟨base, 0, 1⟩, ⟨base, 1, 1⟩], [[0, 0], [2, 0], [1, 1]]⟩

/-- One column over the second of two lists. -/
def right : Tile := ⟨[⟨⟨[⟨"", [.null, .int16 7]⟩]⟩, 0, 1⟩], [[1, 1, 0], [0, 1, 1]]⟩

/-- The second left row with the first two right rows, then the first left row with the last. -/
def products : List (Group × Group) := [(⟨1, 2⟩, ⟨0, 2⟩), (⟨0, 1⟩, ⟨2, 3⟩)]

end Example

/-- The list of the right column moves by the three left lists, not by the two left columns, and a
    value that is missing on the left is missing in the output. -/
theorem finish_ofProducts_unnamed_lists :
    (Example.left.check = .ok () ∧ Example.right.check = .ok () ∧
      ∀ g ∈ Example.products, g.1.stop ≤ Example.left.rowCount ∧
        g.2.stop ≤ Example.right.rowCount) ∧
      ∃ t, (ofProducts Example.left Example.right Example.products).finish = .ok (some t) ∧
        t.check = .ok () ∧ t.rowCount = 3 ∧ t.columnCount = 3 ∧
        t.value 0 2 = some (.int16 30) ∧ t.value 1 2 = none ∧ t.value 2 2 = some (.int16 7) ∧
        t.columns[2]?.map ColumnView.list = some 4 := by
  have hleft : Example.left.check = .ok () := by decide
  have hright : Example.right.check = .ok () := by decide
  have hwithin : ∀ g ∈ Example.products, g.1.stop ≤ Example.left.rowCount ∧
      g.2.stop ≤ Example.right.rowCount := by decide
  obtain ⟨t, hfinish, hcheck, hshows, hlists⟩ :=
    (finish_ofProducts hleft hright hwithin).2 (by decide)
  have hl := hshows.leftValues 2 (0, 2) (by decide)
  have hr := hshows.rightValues 2 (0, 2) (by decide)
  refine ⟨⟨hleft, hright, hwithin⟩, t, hfinish, hcheck, hshows.rows.trans (by decide),
    hshows.columns.trans (by decide), (hl 0 (by decide)).trans (by decide),
    (hl 1 (by decide)).trans (by decide), (hr 0 (by decide)).trans (by decide), ?_⟩
  exact hlists 0 ⟨⟨[⟨"", [.null, .int16 7]⟩]⟩, 0, 1⟩ (by decide)

end Output

end SortMerge

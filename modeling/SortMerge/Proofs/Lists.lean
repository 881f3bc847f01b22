set_option autoImplicit false

/-! # Searches in lists, and lists that are read

Faults are looked for in numbered lists, so that a fault can name the place it was found at. Whether
there is any does not depend on the numbers. What is found in a history is found at its end or
before. Items that are read one by one are read together. What can be read back is told apart. -/

namespace SortMerge

variable {α β : Type}

theorem findSome?_zipIdx_eq_none_iff {f : α × Nat → Option β} {P : α → Prop} (xs : List α)
    (h : ∀ x i, f (x, i) = none ↔ P x) : xs.zipIdx.findSome? f = none ↔ ∀ x ∈ xs, P x := by
  rw [List.findSome?_eq_none_iff]
  constructor
  · intro hnone x hx
    obtain ⟨i, hi, rfl⟩ := List.mem_iff_getElem.1 hx
    exact (h _ i).1 (hnone _ (List.mk_mem_zipIdx_iff_getElem?.2 (List.getElem?_eq_getElem hi)))
  · intro hall q hq
    exact (h q.1 q.2).2 (hall q.1 (List.fst_mem_of_mem_zipIdx hq))

/-- Where an element stands in a list with one more element at the end: there, or before. -/
theorem concat_eq_append_cons {xs before rest : List α} {x a : α}
    (h : xs ++ [x] = before ++ a :: rest) :
    (rest = [] ∧ xs = before ∧ x = a) ∨
      ∃ front, rest = front ++ [x] ∧ xs = before ++ a :: front := by
  rcases List.eq_nil_or_concat rest with rfl | ⟨front, last, rfl⟩
  · obtain ⟨hxs, hx⟩ := List.append_inj' h rfl
    exact .inl ⟨rfl, hxs, List.singleton_inj.1 hx⟩
  · rw [List.concat_eq_append, ← List.cons_append, ← List.append_assoc] at h
    obtain ⟨hxs, hx⟩ := List.append_inj' h rfl
    rw [List.singleton_inj.1 hx]
    exact .inr ⟨front, List.concat_eq_append, hxs⟩

/-- A step that succeeds leaves the other steps to be made. -/
theorem foldlM_cons_some {f : β → α → Option β} {s s' : β} {x : α} (h : f s x = some s')
    (xs : List α) : (x :: xs).foldlM f s = xs.foldlM f s' := by
  rw [List.foldlM_cons, h]
  rfl

/-- Steps that succeed leave the other steps to be made. -/
theorem foldlM_append_some {f : β → α → Option β} {s s' : β} {xs : List α}
    (h : xs.foldlM f s = some s') (ys : List α) : (xs ++ ys).foldlM f s = ys.foldlM f s' := by
  rw [List.foldlM_append, h]
  rfl

/-- Items that are read one by one are read together. -/
theorem mapM_map_eq_some {γ : Type} {read : β → Option γ} {write : α → β} {value : α → γ}
    {xs : List α} (h : ∀ x ∈ xs, read (write x) = some (value x)) :
    (xs.map write).mapM read = some (xs.map value) := by
  induction xs with
  | nil => rfl
  | cons x xs ih =>
      have hrest := ih fun y hy => h y (List.mem_cons_of_mem x hy)
      rw [List.map_cons, List.mapM_cons, h x List.mem_cons_self, hrest]
      rfl

/-- What can be read back is told apart. -/
theorem eq_of_read (write : α → β) (read : β → Option α) (h : ∀ a, read (write a) = some a)
    {a b : α} (hwritten : write a = write b) : a = b := by
  have hread := h a
  rw [hwritten, h b, Option.some.injEq] at hread
  exact hread.symm

end SortMerge

import SortMerge.Plan.Basic
import SortMerge.Proofs.Lists

set_option autoImplicit false

/-! # Valid plans

Validation walks over numbered clauses and stops at the first fault. This module states what an
accepted plan promises to everything that computes keys: there is a clause, and each half of each
clause reads its own side only and no parameter. A plan that has an output schema for two inputs
reads no column that they do not have. -/

namespace SortMerge

/-- The one of two things that belongs to the side. -/
def Side.pick {α : Type} (left right : α) : Side → α
  | .left => left
  | .right => right

/-- Each half of the clause reads columns of its own side and no parameter. -/
def Clause.ReadsOwnSide (c : Clause) : Prop :=
  ∀ side, (∀ r ∈ (c.half side).columns, r.1 = side) ∧ (c.half side).params = []

namespace Plan

theorem halfFault?_eq_none_iff (c : Clause) (i : Nat) (side : Side) :
    halfFault? (c, i) side = none ↔
      (∀ r ∈ (c.half side).columns, r.1 = side) ∧ (c.half side).params = [] := by
  simp only [halfFault?]
  split
  · next r h =>
      have hforeign : r.1 ≠ side := by simpa using List.find?_some h
      simp only [reduceCtorEq, false_iff, not_and]
      intro hown
      exact absurd (hown r (List.mem_of_find?_eq_some h)) hforeign
  · next h =>
      have hown : ∀ r ∈ (c.half side).columns, r.1 = side := by simpa using h
      rw [Option.map_eq_none_iff, List.head?_eq_none_iff]
      exact ⟨fun hp => ⟨hown, hp⟩, fun hp => hp.2⟩

theorem clauseFault_eq_none_iff (c : Clause) (i : Nat) :
    Side.all.findSome? (halfFault? (c, i)) = none ↔ c.ReadsOwnSide := by
  rw [List.findSome?_eq_none_iff]
  constructor
  · intro h side
    exact (halfFault?_eq_none_iff c i side).1 (h side (by cases side <;> simp [Side.all]))
  · intro h side _
    exact (halfFault?_eq_none_iff c i side).2 (h side)

/-- A plan is accepted exactly if it has a clause and every half reads its own side. -/
theorem validate_eq_ok_iff (p : Plan) :
    p.validate = .ok () ↔ p.clauses ≠ [] ∧ ∀ c ∈ p.clauses, c.ReadsOwnSide := by
  have hfault : p.fault? = none ↔ p.clauses ≠ [] ∧ ∀ c ∈ p.clauses, c.ReadsOwnSide := by
    unfold fault?
    by_cases hempty : p.clauses = []
    · simp [hempty]
    · rw [if_neg (by simpa using hempty), findSome?_zipIdx_eq_none_iff _ clauseFault_eq_none_iff]
      simp [hempty]
  rw [← hfault, validate]
  cases p.fault? <;> simp

/-! ## Columns -/

theorem mem_columns {p : Plan} {r : Side × Nat} :
    r ∈ p.columns ↔
      (∃ c ∈ p.clauses, ∃ side, r ∈ (c.half side).columns) ∨
        ∃ e, p.predicate = some e ∧ r ∈ e.columns := by
  have hclauses : (r ∈ p.clauses.flatMap fun c => c.left.columns ++ c.right.columns) ↔
      ∃ c ∈ p.clauses, ∃ side, r ∈ (c.half side).columns := by
    simp only [List.mem_flatMap, List.mem_append]
    refine exists_congr fun c => and_congr_right fun _ => ?_
    constructor
    · rintro (h | h)
      · exact ⟨.left, h⟩
      · exact ⟨.right, h⟩
    · rintro ⟨side, h⟩
      cases side with
      | left => exact .inl h
      | right => exact .inr h
  rw [columns, List.mem_append, hclauses]
  cases p.predicate <;> simp

/-- There is an output schema exactly if each side has every column that the plan reads from it. -/
theorem outputSchema_eq_ok_iff {p : Plan} {left right out : Schema} :
    p.outputSchema [left, right] = .ok out ↔
      (∀ r ∈ p.columns, r.2 < (r.1.pick left right).fields.length) ∧ out = left.join right := by
  simp only [outputSchema]
  split
  · next side index hfind =>
      have hmem := List.mem_of_find?_eq_some hfind
      have hwide := List.find?_some hfind
      simp only [reduceCtorEq, false_iff, not_and]
      intro hall
      have hlt := hall (side, index) hmem
      cases side <;> simp [Side.pick] at hwide hlt <;> omega
  · next hfind =>
      have hall : ∀ r ∈ p.columns, r.2 < (r.1.pick left right).fields.length := by
        intro r hr
        have hnot := List.find?_eq_none.1 hfind r hr
        obtain ⟨side, index⟩ := r
        cases side <;> simpa [Side.pick] using hnot
      simp only [Except.ok.injEq]
      exact ⟨fun heq => ⟨hall, heq.symm⟩, fun h => h.2.symm⟩

end Plan

end SortMerge

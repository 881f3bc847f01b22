import SortMerge.Plan.Basic
import SortMerge.Proofs.Expr.Json

set_option autoImplicit false

/-! # Plans that read back from JSON

A valid plan of portable expressions, written as JSON and read again, is the same plan, provided
that its JSON is not nested deeper than a reader may go. Each step of reading undoes one of writing:
the text gives back its JSON, the JSON its meaning, and the meaning gives the clauses in their order
and the predicate or its absence. -/

namespace SortMerge

/-! ## Clauses -/

namespace Clause

/-- Both halves of the clause are portable. -/
def IsPortable (c : Clause) : Prop := c.left.IsPortable ∧ c.right.IsPortable

theorem isClear_toJson {c : Clause} (h : c.IsPortable) : c.toJson.IsClear := by
  refine Json.writtenWith_record ?_
  simp only [List.forall_mem_cons]
  exact ⟨Expr.isClear_toJson h.1, Expr.isClear_toJson h.2, by simp⟩

end Clause

/-- From the meaning of its JSON a portable expression is read as it was. -/
theorem Expr.ofDoc?_meaning_toJson {e : Expr} (h : e.IsPortable) :
    Expr.ofDoc? e.toJson.meaning = some e := by
  rw [ofDoc?_eq_read? (isClear_toJson h).isReadable, read?_meaning_toJson h true]

theorem Clause.ofDoc?_meaning_toJson {c : Clause} (h : c.IsPortable) :
    Clause.ofDoc? c.toJson.meaning = some c := by
  have hslots := Doc.slots?_pair (show "left" ≠ "right" by decide) c.left.toJson.meaning
    c.right.toJson.meaning 2
  rw [toJson, Json.meaning_record, ofDoc?]
  simp only [List.map_cons, List.map_nil, hslots, Expr.ofDoc?_meaning_toJson h.1,
    Expr.ofDoc?_meaning_toJson h.2]

/-! ## Whole plans -/

namespace Plan

/-- No literal of the plan is a float, and every number of a column or a parameter fits 64 bits. -/
structure IsPortable (p : Plan) : Prop where
  clauses : ∀ c ∈ p.clauses, c.IsPortable
  predicate : ∀ e ∈ p.predicate, e.IsPortable

theorem isClear_predicateJson {predicate : Option Expr} (h : ∀ e ∈ predicate, e.IsPortable) :
    (predicateJson predicate).IsClear := by
  cases predicate with
  | none => exact .null
  | some e => exact Expr.isClear_toJson (h e rfl)

theorem isClear_toJson {p : Plan} (h : p.IsPortable) : p.toJson.IsClear := by
  have hclauses : (Json.array (p.clauses.map Clause.toJson)).IsClear :=
    .array (List.forall_mem_map.2 fun c hc => Clause.isClear_toJson (h.clauses c hc))
  refine Json.writtenWith_record ?_
  simp only [List.forall_mem_cons]
  exact ⟨hclauses, isClear_predicateJson h.predicate, by simp⟩

theorem predicateOfSlot?_meaning {predicate : Option Expr} (h : ∀ e ∈ predicate, e.IsPortable) :
    predicateOfSlot? (some (predicateJson predicate).meaning) = some predicate := by
  cases predicate with
  | none => rfl
  | some e =>
      have hread := Expr.ofDoc?_meaning_toJson (h e rfl)
      rw [predicateJson]
      -- only the absent predicate is written as null
      cases hdoc : e.toJson.meaning with
      | null => rw [hdoc] at hread; exact absurd hread (by simp [Expr.ofDoc?])
      | _ => simp only [predicateOfSlot?, ← hdoc, hread, Option.map_some]

/-- The meaning of a plan's JSON spells the plan. -/
theorem ofDoc?_meaning_toJson {p : Plan} (h : p.IsPortable) :
    ofDoc? p.toJson.meaning = some p := by
  have hslots := Doc.slots?_pair (show "clauses" ≠ "predicate" by decide)
    (.list ((p.clauses.map Clause.toJson).map Json.meaning)) (predicateJson p.predicate).meaning 1
  have hclauses : ((p.clauses.map Clause.toJson).map Json.meaning).mapM Clause.ofDoc?
      = some p.clauses := by
    have hitems := mapM_map_eq_some fun c hc => Clause.ofDoc?_meaning_toJson (h.clauses c hc)
    rw [List.map_map]
    rwa [List.map_id'] at hitems
  rw [toJson, Json.meaning_record, ofDoc?]
  simp only [List.map_cons, List.map_nil, Json.meaning_array, hslots, Doc.list?, Option.bind_some,
    hclauses, predicateOfSlot?_meaning h.predicate]

/-- A valid plan of portable expressions is read back from its JSON text, if that is nested at most
    127 deep. -/
theorem ofJson_render {p : Plan} (hvalid : p.validate = .ok ()) (hportable : p.IsPortable)
    (hdepth : p.toJson.depth ≤ 127) : ofJson p.toJson.render = .ok p := by
  have hclear := isClear_toJson hportable
  have hread := Json.read?_render (hclear.mono fun _ hn => hn.1) hdepth
  rw [ofJson, hread, Option.bind_some, ofDoc?_meaning_toJson hportable]
  simp only [validated, hvalid]
  rfl

end Plan

namespace Example

/-- A plan with marks, controls and characters outside the basic plane in its literals, and with the
    widest integers. -/
def portablePlan : Plan where
  clauses :=
    [⟨.column .left 0, .column .right 18446744073709551615⟩,
     ⟨.not (.literal .null), .junction .and []⟩]
  predicate := some (.junction .or
    [.compare .le (.literal (.text "a\"b\\c\n\t\x01\x7b é 😀")) (.param 7),
     .junction .and [.not (.literal (.bool false)), .literal (.binary [0, 10, 255]),
       .literal (.binary [])],
     .compare .ne (.literal (.int64 (-9223372036854775808))) (.literal (.timestamp (-1))),
     .compare .gt (.literal (.int16 (-32768))) (.literal (.int32 2147483647))])

theorem isPortable_portablePlan : portablePlan.IsPortable := by
  refine ⟨?_, ?_⟩
  · simp only [portablePlan, List.forall_mem_cons]
    exact ⟨⟨.column .left (by decide), .column .right (by decide)⟩,
      ⟨.not (.literal rfl), .junction .and (by simp)⟩, by simp⟩
  · intro e he
    cases he
    refine .junction .or ?_
    simp only [List.forall_mem_cons]
    refine ⟨.compare .le (.literal rfl) (.param (by decide)), .junction .and ?_,
      .compare .ne (.literal rfl) (.literal rfl), .compare .gt (.literal rfl) (.literal rfl),
      by simp⟩
    simp only [List.forall_mem_cons]
    exact ⟨.not (.literal rfl), .literal rfl, .literal rfl, by simp⟩

end Example

/-- A plan in which every kind of portable literal occurs is read back. -/
theorem ofJson_render_portablePlan :
    Example.portablePlan.validate = .ok () ∧ Example.portablePlan.IsPortable ∧
      Example.portablePlan.toJson.depth ≤ 127 ∧
      Plan.ofJson Example.portablePlan.toJson.render = .ok Example.portablePlan :=
  ⟨rfl, Example.isPortable_portablePlan, by decide,
    Plan.ofJson_render rfl Example.isPortable_portablePlan (by decide)⟩

end SortMerge

import SortMerge.Engine
import SortMerge.Proofs.Expr.Written
import SortMerge.Proofs.Scalar.Bytes

set_option autoImplicit false

/-! # What the hash of a plan tells

The hash of a plan is taken over its JSON text. The text gives back the JSON, and the JSON tells the
clauses, their order and the predicate down to the literals. Only floats that are not finite look
alike in it: two plans that differ in such floats alone have the same text and so the same hash,
even if they select different rows. Apart from that, and from collisions of the hash function, the
hash tells the plan. -/

namespace SortMerge

/-! ## Collisions -/

/-- Two byte strings that the hash function fails to tell apart. -/
def Digest.Blake3.Collide (bs cs : List UInt8) : Prop := bs ≠ cs ∧ hash bs = hash cs

theorem Digest.ofText_eq_iff (s t : String) :
    ofText s = ofText t ↔ s = t ∨ Blake3.Collide s.toUTF8.toList t.toUTF8.toList := by
  rw [ofText, ofText, ofBytes, ofBytes, Digest.mk.injEq]
  constructor
  · intro hhash
    by_cases heq : s = t
    · exact .inl heq
    · exact .inr ⟨fun hbytes => heq (Text.toUTF8_toList_inj hbytes), hhash⟩
  · rintro (rfl | hcollide)
    · rfl
    · exact hcollide.2

/-! ## Clauses -/

namespace Clause

/-- The clause with the literals of both halves blurred. -/
def blurred (c : Clause) : Clause := ⟨c.left.blurred, c.right.blurred⟩

/-- Every literal of the clause is finite. -/
def IsFinite (c : Clause) : Prop := c.left.IsFinite ∧ c.right.IsFinite

theorem blurred_of_isFinite {c : Clause} (h : c.IsFinite) : c.blurred = c := by
  rw [blurred, Expr.blurred_of_isFinite h.1, Expr.blurred_of_isFinite h.2]

theorem toJson_blurred (c : Clause) : c.blurred.toJson = c.toJson := by
  rw [toJson, toJson, blurred, Expr.toJson_blurred, Expr.toJson_blurred]

theorem blurred_eq_of_toJson {c d : Clause} (h : c.toJson = d.toJson) : c.blurred = d.blurred := by
  have hmembers := Json.record_inj h
  simp only [List.cons.injEq, Prod.mk.injEq, true_and, and_true] at hmembers
  rw [blurred, blurred, Expr.blurred_eq_of_toJson hmembers.1, Expr.blurred_eq_of_toJson hmembers.2]

theorem writtenWith_toJson (c : Clause) : c.toJson.WrittenWith Numeral.IsSpelled := by
  refine Json.writtenWith_record ?_
  simp only [List.forall_mem_cons]
  exact ⟨c.left.writtenWith_toJson, c.right.writtenWith_toJson, by simp⟩

end Clause

/-! ## Plans -/

namespace Plan

/-- The plan with its literals blurred. -/
def blurred (p : Plan) : Plan := ⟨p.clauses.map Clause.blurred, p.predicate.map Expr.blurred⟩

/-- Every literal of the plan is finite. -/
structure IsFinite (p : Plan) : Prop where
  clauses : ∀ c ∈ p.clauses, c.IsFinite
  predicate : ∀ e ∈ p.predicate, e.IsFinite

theorem blurred_of_isFinite {p : Plan} (h : p.IsFinite) : p.blurred = p := by
  have hclauses : p.clauses.map Clause.blurred = p.clauses := by
    rw [List.map_congr_left fun c hc => Clause.blurred_of_isFinite (h.clauses c hc), List.map_id']
  have hpredicate : p.predicate.map Expr.blurred = p.predicate := by
    cases hp : p.predicate with
    | none => rfl
    | some e => rw [Option.map_some, Expr.blurred_of_isFinite (h.predicate e hp)]
  rw [blurred, hclauses, hpredicate]

theorem toJson_blurred (p : Plan) : p.blurred.toJson = p.toJson := by
  have hclauses : (p.clauses.map Clause.blurred).map Clause.toJson
      = p.clauses.map Clause.toJson := by
    rw [List.map_map]
    exact List.map_congr_left fun c _ => Clause.toJson_blurred c
  have hpredicate : predicateJson (p.predicate.map Expr.blurred) = predicateJson p.predicate := by
    cases p.predicate with
    | none => rfl
    | some e => exact Expr.toJson_blurred e
  rw [toJson, toJson, blurred, hclauses, hpredicate]

theorem blurred_eq_of_clausesJson : ∀ {cs ds : List Clause},
    cs.map Clause.toJson = ds.map Clause.toJson → cs.map Clause.blurred = ds.map Clause.blurred
  | [], [], _ => rfl
  | [], _ :: _, h => by cases h
  | _ :: _, [], h => by cases h
  | c :: cs, d :: ds, h => by
      rw [List.map_cons, List.map_cons, List.cons.injEq] at h
      rw [List.map_cons, List.map_cons, Clause.blurred_eq_of_toJson h.1,
        blurred_eq_of_clausesJson h.2]

/-- An absent predicate is not written like any that there is. -/
theorem blurred_eq_of_predicateJson {d e : Option Expr} (h : predicateJson d = predicateJson e) :
    d.map Expr.blurred = e.map Expr.blurred := by
  cases d with
  | none =>
      cases e with
      | none => rfl
      | some e =>
          rw [predicateJson, predicateJson, Expr.toJson_eq_formJson] at h
          cases h
  | some d =>
      cases e with
      | none =>
          rw [predicateJson, predicateJson, Expr.toJson_eq_formJson] at h
          cases h
      | some e => exact congrArg some (Expr.blurred_eq_of_toJson h)

theorem blurred_eq_of_toJson {p q : Plan} (h : p.toJson = q.toJson) : p.blurred = q.blurred := by
  have hmembers := Json.record_inj h
  simp only [List.cons.injEq, Prod.mk.injEq, true_and, and_true, Json.array.injEq] at hmembers
  rw [blurred, blurred, blurred_eq_of_clausesJson hmembers.1,
    blurred_eq_of_predicateJson hmembers.2]

theorem writtenWith_toJson (p : Plan) : p.toJson.WrittenWith Numeral.IsSpelled := by
  have hpredicate : (predicateJson p.predicate).WrittenWith Numeral.IsSpelled := by
    cases p.predicate with
    | none => exact .null
    | some e => exact e.writtenWith_toJson
  refine Json.writtenWith_record ?_
  simp only [List.forall_mem_cons]
  exact ⟨.array (List.forall_mem_map.2 fun c _ => c.writtenWith_toJson), hpredicate, by simp⟩

/-- Two plans have the same text exactly if they are the same, blurred. -/
theorem render_toJson_eq_iff (p q : Plan) :
    p.toJson.render = q.toJson.render ↔ p.blurred = q.blurred := by
  constructor
  · intro h
    have hparse := Json.parse?_render p.writtenWith_toJson
    rw [h, Json.parse?_render q.writtenWith_toJson, Option.some.injEq] at hparse
    exact blurred_eq_of_toJson hparse.symm
  · intro h
    rw [← toJson_blurred p, h, toJson_blurred q]

/-- The text of a plan tells the plan with its literals blurred, and so does the hash, up to
    collisions. If all literals are finite, the text tells the plan itself. -/
theorem text_and_hash_eq_iff (p q : Plan) :
    (p.toJson.render = q.toJson.render ↔ p.blurred = q.blurred) ∧
      (p.hash = q.hash ↔ p.blurred = q.blurred ∨
        Digest.Blake3.Collide p.toJson.render.toUTF8.toList q.toJson.render.toUTF8.toList) ∧
      (p.IsFinite → q.IsFinite → (p.toJson.render = q.toJson.render ↔ p = q)) := by
  refine ⟨render_toJson_eq_iff p q, ?_, fun hp hq => ?_⟩
  · rw [hash, hash, Digest.ofText_eq_iff, render_toJson_eq_iff]
  · rw [render_toJson_eq_iff, blurred_of_isFinite hp, blurred_of_isFinite hq]

end Plan

namespace Example

/-- The pairs of rows whose first left column is above the float with the given word. -/
def above (word : UInt64) : Plan where
  clauses := [.onColumns 0 0]
  predicate := some (.compare .gt (.column .left 0) (.literal (.float64 word)))

theorem isFinite_above {word : UInt64} (h : Floating.binary64.isFinite word.toNat = true) :
    (above word).IsFinite := by
  refine ⟨List.forall_mem_singleton.2 ⟨.column .left 0, .column .right 0⟩, fun e he => ?_⟩
  cases he
  exact .compare .gt (.column .left 0) (.literal h)

/-- A pair of rows of zeros. -/
def zeros : Env :=
  let row : Row := ⟨0, 1, fun _ => some (.float64 0)⟩
  ⟨row, row, []⟩

end Example

/-- A tenth and the next float after it are told apart. -/
theorem text_and_hash_eq_iff_tenth :
    (Example.above 0x3fb999999999999a).IsFinite ∧ (Example.above 0x3fb999999999999b).IsFinite ∧
      (Example.above 0x3fb999999999999a).toJson.render
        ≠ (Example.above 0x3fb999999999999b).toJson.render := by
  have htenth : (Example.above 0x3fb999999999999a).IsFinite := Example.isFinite_above (by decide)
  have hnext : (Example.above 0x3fb999999999999b).IsFinite := Example.isFinite_above (by decide)
  obtain ⟨-, -, hplan⟩ :=
    Plan.text_and_hash_eq_iff (Example.above 0x3fb999999999999a) (Example.above 0x3fb999999999999b)
  refine ⟨htenth, hnext, fun h => ?_⟩
  have hsame := (hplan htenth hnext).1 h
  simp [Example.above] at hsame

/-- Above positive infinity is nothing and above negative infinity is zero, but the two valid plans
    that select so have one text and one hash. -/
theorem text_of_infinities :
    (Example.above 0x7ff0000000000000).validate = .ok () ∧
      (Example.above 0xfff0000000000000).validate = .ok () ∧
      Example.above 0x7ff0000000000000 ≠ Example.above 0xfff0000000000000 ∧
      (Example.above 0x7ff0000000000000).toJson.render
        = (Example.above 0xfff0000000000000).toJson.render ∧
      (Example.above 0x7ff0000000000000).hash = (Example.above 0xfff0000000000000).hash ∧
      (Example.above 0x7ff0000000000000).predicate.map (Expr.eval Example.zeros)
        = some (.ok (.bool false)) ∧
      (Example.above 0xfff0000000000000).predicate.map (Expr.eval Example.zeros)
        = some (.ok (.bool true)) := by
  have hjson : (Example.above 0x7ff0000000000000).toJson
      = (Example.above 0xfff0000000000000).toJson := rfl
  have htext := congrArg Json.render hjson
  exact ⟨rfl, rfl, by simp [Example.above], htext, congrArg Digest.ofText htext, by rfl, by rfl⟩

end SortMerge

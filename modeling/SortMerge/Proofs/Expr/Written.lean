import SortMerge.Proofs.Expr.Json
import SortMerge.Proofs.Scalar.Written

set_option autoImplicit false

/-! # What the JSON of an expression tells

The JSON of an expression names its form and holds its fields, so it tells the expression down to
its literals, and these up to floats that are not finite (`blurred_eq_of_toJson`). -/

namespace SortMerge.Expr

/-! ## Blurring literals -/

mutual

/-- The expression with its literals blurred. -/
def blurred : Expr → Expr
  | .column side index => .column side index
  | .literal v => .literal v.blurred
  | .param index => .param index
  | .compare op l r => .compare op l.blurred r.blurred
  | .junction op args => .junction op (blurredAll args)
  | .not arg => .not arg.blurred

def blurredAll : List Expr → List Expr
  | [] => []
  | e :: es => e.blurred :: blurredAll es

end

/-- Every literal is finite. -/
inductive IsFinite : Expr → Prop where
  | column (side : Side) (index : Nat) : IsFinite (.column side index)
  | literal {v : Scalar} : v.isFinite = true → IsFinite (.literal v)
  | param (index : Nat) : IsFinite (.param index)
  | compare (op : Comparison) {l r : Expr} : IsFinite l → IsFinite r → IsFinite (.compare op l r)
  | junction (op : Junction) {args : List Expr} :
      (∀ e ∈ args, IsFinite e) → IsFinite (.junction op args)
  | not {arg : Expr} : IsFinite arg → IsFinite (.not arg)

theorem blurredAll_eq_map (es : List Expr) : blurredAll es = es.map blurred := by
  induction es with
  | nil => rfl
  | cons e es ih => rw [blurredAll, List.map_cons, ih]

theorem blurred_of_isFinite {e : Expr} (h : e.IsFinite) : e.blurred = e := by
  induction h with
  | column side index => rfl
  | literal hv => rw [blurred, Scalar.blurred_of_isFinite hv]
  | param index => rfl
  | compare op _ _ ihl ihr => rw [blurred, ihl, ihr]
  | junction op _ ih => rw [blurred, blurredAll_eq_map, List.map_congr_left ih, List.map_id']
  | not _ ih => rw [blurred, ih]

mutual

theorem toJson_blurred : ∀ e : Expr, e.blurred.toJson = e.toJson
  | .column side index => rfl
  | .literal v => by rw [blurred, toJson, toJson, Scalar.toJson_blurred]
  | .param index => rfl
  | .compare op l r => by rw [blurred, toJson, toJson, toJson_blurred l, toJson_blurred r]
  | .junction op args => by rw [blurred, toJson, toJson, toJsons_blurredAll args]
  | .not arg => by rw [blurred, toJson, toJson, toJson_blurred arg]

theorem toJsons_blurredAll : ∀ es : List Expr, toJsons (blurredAll es) = toJsons es
  | [] => rfl
  | e :: es => by rw [blurredAll, toJsons, toJsons, toJson_blurred e, toJsons_blurredAll es]

end

/-! ## Forms and fields -/

def form : Expr → Form
  | .column _ _ => .column
  | .literal _ => .literal
  | .param _ => .param
  | .compare _ _ _ => .compare
  | .junction op _ => junctionForm op
  | .not _ => .not

/-- The JSON of an expression's fields, in the order of its form. -/
def fieldJsons : Expr → List Json
  | .column side index => [.ofString side.name, .ofNat index]
  | .literal v => [v.toJson]
  | .param index => [.ofNat index]
  | .compare op l r => [.ofString op.name, l.toJson, r.toJson]
  | .junction _ args => [.array (toJsons args)]
  | .not arg => [arg.toJson]

theorem toJson_eq_formJson (e : Expr) : e.toJson = formJson e.form e.fieldJsons := by
  cases e <;> rw [toJson] <;> rfl

theorem length_fieldJsons (e : Expr) : e.fieldJsons.length = e.form.fields.length := by
  cases e with
  | junction op args => cases op <;> rfl
  | _ => rfl

theorem formJson_inj {f g : Form} {vs ws : List Json} (hvs : vs.length = f.fields.length)
    (hws : ws.length = g.fields.length) (h : formJson f vs = formJson g ws) : f = g ∧ vs = ws := by
  have hmembers := Json.record_inj h
  rw [List.cons.injEq, Prod.mk.injEq] at hmembers
  obtain rfl : f = g := eq_of_read Form.name (fun n => form? true (.text n)) (form?_name true)
    (Json.ofString_inj hmembers.1.2)
  refine ⟨rfl, ?_⟩
  have hvalues := congrArg (List.map Prod.snd) hmembers.2
  rwa [List.map_snd_zip (Nat.le_of_eq hvs), List.map_snd_zip (Nat.le_of_eq hws)] at hvalues

/-- The JSON of an expression tells its form and the JSON of its fields. -/
theorem form_and_fields_of_toJson {a b : Expr} (h : a.toJson = b.toJson) :
    a.form = b.form ∧ a.fieldJsons = b.fieldJsons := by
  rw [toJson_eq_formJson, toJson_eq_formJson] at h
  exact formJson_inj (length_fieldJsons a) (length_fieldJsons b) h

theorem side_name_inj {s t : Side} (h : s.name = t.name) : s = t :=
  eq_of_read Side.name (fun n => sideOfDoc? (.text n)) sideOfDoc?_name h

theorem comparison_name_inj {o p : Comparison} (h : o.name = p.name) : o = p :=
  eq_of_read Comparison.name (fun n => comparisonOfDoc? (.text n)) comparisonOfDoc?_name h

theorem junctionForm_inj {o p : Junction} (h : junctionForm o = junctionForm p) : o = p := by
  cases o <;> cases p <;> first | rfl | cases h

/-! ## Whole expressions -/

mutual

/-- Expressions with the same JSON are the same, blurred. -/
theorem blurred_eq_of_toJson : ∀ {a b : Expr}, a.toJson = b.toJson → a.blurred = b.blurred
  | .column s i, b, h => by
      obtain ⟨hform, hfields⟩ := form_and_fields_of_toJson h
      cases b with
      | column t j =>
          simp only [fieldJsons, List.cons.injEq, and_true] at hfields
          rw [side_name_inj (Json.ofString_inj hfields.1), Json.ofNat_inj hfields.2]
      | junction op args => cases op <;> cases hform
      | _ => cases hform
  | .literal v, b, h => by
      obtain ⟨hform, hfields⟩ := form_and_fields_of_toJson h
      cases b with
      | literal w =>
          simp only [fieldJsons, List.cons.injEq, and_true] at hfields
          rw [blurred, blurred, Scalar.blurred_eq_of_toJson hfields]
      | junction op args => cases op <;> cases hform
      | _ => cases hform
  | .param i, b, h => by
      obtain ⟨hform, hfields⟩ := form_and_fields_of_toJson h
      cases b with
      | param j =>
          simp only [fieldJsons, List.cons.injEq, and_true] at hfields
          rw [Json.ofNat_inj hfields]
      | junction op args => cases op <;> cases hform
      | _ => cases hform
  | .compare o l r, b, h => by
      obtain ⟨hform, hfields⟩ := form_and_fields_of_toJson h
      cases b with
      | compare p l' r' =>
          simp only [fieldJsons, List.cons.injEq, and_true] at hfields
          obtain ⟨hop, hl, hr⟩ := hfields
          rw [blurred, blurred, comparison_name_inj (Json.ofString_inj hop),
            blurred_eq_of_toJson hl, blurred_eq_of_toJson hr]
      | junction op args => cases op <;> cases hform
      | _ => cases hform
  | .junction o args, b, h => by
      obtain ⟨hform, hfields⟩ := form_and_fields_of_toJson h
      cases b with
      | junction p args' =>
          simp only [fieldJsons, List.cons.injEq, and_true, Json.array.injEq] at hfields
          rw [blurred, blurred, junctionForm_inj hform, blurredAll_eq_of_toJsons hfields]
      | _ => cases o <;> cases hform
  | .not arg, b, h => by
      obtain ⟨hform, hfields⟩ := form_and_fields_of_toJson h
      cases b with
      | not arg' =>
          simp only [fieldJsons, List.cons.injEq, and_true] at hfields
          rw [blurred, blurred, blurred_eq_of_toJson hfields]
      | junction op args => cases op <;> cases hform
      | _ => cases hform

theorem blurredAll_eq_of_toJsons : ∀ {as bs : List Expr}, toJsons as = toJsons bs →
    blurredAll as = blurredAll bs
  | [], [], _ => rfl
  | [], _ :: _, h => by cases h
  | _ :: _, [], h => by cases h
  | a :: as, b :: bs, h => by
      rw [toJsons, toJsons, List.cons.injEq] at h
      rw [blurredAll, blurredAll, blurred_eq_of_toJson h.1, blurredAll_eq_of_toJsons h.2]

end

/-! ## What is written can be scanned -/

mutual

theorem writtenWith_toJson : ∀ e : Expr, e.toJson.WrittenWith Numeral.IsSpelled
  | .column side index => by
      rw [toJson]
      refine writtenWith_formJson .column ?_
      simp only [List.forall_mem_cons]
      exact ⟨.text _, .number (Numeral.isSpelled_ofNat index), by simp⟩
  | .literal v => by
      rw [toJson]
      exact writtenWith_formJson .literal (List.forall_mem_singleton.2 v.writtenWith_toJson)
  | .param index => by
      rw [toJson]
      exact writtenWith_formJson .param
        (List.forall_mem_singleton.2 (.number (Numeral.isSpelled_ofNat index)))
  | .compare op l r => by
      rw [toJson]
      refine writtenWith_formJson .compare ?_
      simp only [List.forall_mem_cons]
      exact ⟨.text _, writtenWith_toJson l, writtenWith_toJson r, by simp⟩
  | .junction op args => by
      rw [toJson]
      exact writtenWith_formJson (junctionForm op)
        (List.forall_mem_singleton.2 (.array (writtenWith_toJsons args)))
  | .not arg => by
      rw [toJson]
      exact writtenWith_formJson .not (List.forall_mem_singleton.2 (writtenWith_toJson arg))

theorem writtenWith_toJsons : ∀ es : List Expr, ∀ j ∈ toJsons es,
    j.WrittenWith Numeral.IsSpelled
  | [] => by simp [toJsons]
  | e :: es => by
      rw [toJsons, List.forall_mem_cons]
      exact ⟨writtenWith_toJson e, writtenWith_toJsons es⟩

end

end SortMerge.Expr

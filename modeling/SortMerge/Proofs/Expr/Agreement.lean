import SortMerge.Expr.Eval
import SortMerge.Proofs.Scalar.Order

set_option autoImplicit false

/-! # Environments that evaluation cannot tell apart

The value of an expression, an error included, depends on its environment only through what it
mentions. Even there it is much the same for scalars that compare equal. -/

namespace SortMerge

/-! ## What evaluation reads

An expression looks at the rows of the sides that it names and at the parameters that it mentions.
Of a row it sees the cells and, in errors, their number; where the row stands in its tile makes no
difference. -/

/-- The two rows have the same cells, at whatever places of their tiles they stand. -/
structure Row.Alike (a b : Row) : Prop where
  width : a.width = b.width
  cell : a.cell = b.cell

theorem Row.Alike.refl (a : Row) : a.Alike a := ⟨rfl, rfl⟩

namespace Expr

mutual

/-- Environments that agree on what an expression mentions give it the same value. -/
theorem eval_congr {env env' : Env} : ∀ e : Expr,
    (∀ c ∈ e.columns, (env.row c.1).Alike (env'.row c.1)) →
    (∀ i ∈ e.params, env.params[i]? = env'.params[i]?) → e.eval env = e.eval env'
  | .column side index, hc, _ => by
      have hrow := hc (side, index) (by simp [columns])
      rw [eval, eval, hrow.cell, hrow.width]
  | .literal v, _, _ => by rw [eval, eval]
  | .param index, _, hp => by
      have hparam := hp index (by simp [params])
      rw [eval, eval, hparam]
  | .compare op l r, hc, hp => by
      simp only [columns, params, List.mem_append] at hc hp
      have hl := eval_congr l (fun c h => hc c (.inl h)) (fun i h => hp i (.inl h))
      have hr := eval_congr r (fun c h => hc c (.inr h)) (fun i h => hp i (.inr h))
      rw [eval, eval, hl, hr]
  | .junction op args, hc, hp => by
      rw [eval, eval]
      exact evalJunction_congr op args false hc hp
  | .not arg, hc, hp => by rw [eval, eval, eval_congr arg hc hp]

theorem evalJunction_congr {env env' : Env} (op : Junction) : ∀ (es : List Expr) (unknown : Bool),
    (∀ c ∈ columnsOfAll es, (env.row c.1).Alike (env'.row c.1)) →
    (∀ i ∈ paramsOfAll es, env.params[i]? = env'.params[i]?) →
    evalJunction env op es unknown = evalJunction env' op es unknown
  | [], unknown, _, _ => by rw [evalJunction, evalJunction]
  | e :: es, unknown, hc, hp => by
      simp only [columnsOfAll, paramsOfAll, List.mem_append] at hc hp
      have he := eval_congr e (fun c h => hc c (.inl h)) (fun i h => hp i (.inl h))
      have hes : ∀ u, evalJunction env op es u = evalJunction env' op es u := fun u =>
        evalJunction_congr op es u (fun c h => hc c (.inr h)) (fun i h => hp i (.inr h))
      simp only [evalJunction, he, hes]

end

end Expr

/-! ## Scalars that compare equal

Rows of one group have keys that compare equal, and yet they may hold different scalars: numbers of
other widths, zeros of either sign, other payloads of what is no number. An expression cannot tell
them apart. In two environments that agree on its columns it either fails in both or has values in
both, and these compare equal again; a truth value is even the same. -/

/-! ### What a scalar tells by its place -/

namespace Scalar

theorem isNull_eq (a : Scalar) : a.isNull = decide (a.place = 0) := by
  cases a <;> rfl

theorem isFalse_eq (a : Scalar) :
    a.isFalse = decide (a.place = 0 ∨ a.place = 1 ∧ a.asBool = false) := by
  cases a with
  | bool b => cases b <;> rfl
  | _ => rfl

theorem isNull_eq_of_compare_eq {a b : Scalar} (h : a.compare b = .eq) : a.isNull = b.isNull := by
  obtain ⟨hplace, -⟩ := place_eq_and_asBool_eq_of_compare_eq h
  rw [isNull_eq, isNull_eq, hplace]

theorem isFalse_eq_of_compare_eq {a b : Scalar} (h : a.compare b = .eq) :
    a.isFalse = b.isFalse := by
  obtain ⟨hplace, hbool⟩ := place_eq_and_asBool_eq_of_compare_eq h
  rw [isFalse_eq, isFalse_eq, hplace, hbool]

end Scalar

namespace Expr

/-- Comparing scalars gives the same outcome for operands that compare equal. -/
theorem compareValues_congr (op : Comparison) {a a' b b' : Scalar} (ha : a.compare a' = .eq)
    (hb : b.compare b' = .eq) : compareValues op a b = compareValues op a' b' := by
  have horder : a.compare b = a'.compare b' := by
    rw [Std.TransCmp.congr_left ha, Std.TransCmp.congr_right hb]
  rw [compareValues, compareValues, Scalar.isNull_eq_of_compare_eq ha,
    Scalar.isNull_eq_of_compare_eq hb, horder]

theorem truth_eq (op : Connective) (a : Scalar) :
    truth op a =
      if a.place = 0 then .ok none
      else if a.place = 1 then .ok (some a.asBool)
      else .error (.notBoolean op a) := by
  cases a <;> rfl

/-- Scalars that compare equal have one truth value, or neither of them has any. -/
theorem truth_cases (op : Connective) {a b : Scalar} (h : a.compare b = .eq) :
    (∃ t, truth op a = .ok t ∧ truth op b = .ok t) ∨
      (∃ e e', truth op a = .error e ∧ truth op b = .error e') := by
  obtain ⟨hplace, hbool⟩ := Scalar.place_eq_and_asBool_eq_of_compare_eq h
  rw [truth_eq, truth_eq, hplace, hbool]
  split
  · exact .inl ⟨none, rfl, rfl⟩
  · split
    · exact .inl ⟨some b.asBool, rfl, rfl⟩
    · exact .inr ⟨_, _, rfl, rfl⟩

/-! ### Agreement -/

/-- Both are values that compare equal, or both are errors. -/
def Agree (x y : Except ExprError Scalar) : Prop :=
  (∃ a b, x = .ok a ∧ y = .ok b ∧ a.compare b = .eq) ∨ (∃ e e', x = .error e ∧ y = .error e')

theorem Agree.refl (x : Except ExprError Scalar) : Agree x x := by
  cases x with
  | ok a => exact .inl ⟨a, a, rfl, rfl, Std.ReflCmp.compare_self⟩
  | error e => exact .inr ⟨e, e, rfl, rfl⟩

/-- Both environments have values in the column of the side, and these compare equal. -/
def AgreeAt (env env' : Env) (c : Side × Nat) : Prop :=
  ∃ a b, (env.row c.1).cell c.2 = some a ∧ (env'.row c.1).cell c.2 = some b ∧ a.compare b = .eq

variable {env env' : Env}

mutual

/-- Environments that agree on the columns of an expression and supply the same parameters give it
    values that compare equal, or no value at all. -/
theorem eval_agree (hparams : env.params = env'.params) : ∀ e : Expr,
    (∀ c ∈ e.columns, AgreeAt env env' c) → Agree (e.eval env) (e.eval env')
  | .column side index, hcols => by
      obtain ⟨a, b, ha, hb, hab⟩ := hcols (side, index) (by simp [columns])
      simp only at ha hb
      simp only [eval, ha, hb]
      exact .inl ⟨a, b, rfl, rfl, hab⟩
  | .literal v, _ => by
      rw [eval, eval]
      exact .refl _
  | .param index, _ => by
      rw [eval, eval, hparams]
      exact .refl _
  | .compare op l r, hcols => by
      simp only [columns, List.mem_append] at hcols
      have hl := eval_agree hparams l (fun c h => hcols c (.inl h))
      have hr := eval_agree hparams r (fun c h => hcols c (.inr h))
      rw [eval, eval]
      rcases hl with ⟨a, a', ha, ha', hl⟩ | ⟨e, e', he, he'⟩
      · rcases hr with ⟨b, b', hb, hb', hr⟩ | ⟨e, e', he, he'⟩
        · simp only [ha, ha', hb, hb', compareValues_congr op hl hr]
          exact .refl _
        · simp only [ha, ha', he, he']
          exact .inr ⟨e, e', rfl, rfl⟩
      · simp only [he, he']
        exact .inr ⟨e, e', rfl, rfl⟩
  | .junction op args, hcols => by
      rw [eval, eval]
      exact evalJunction_agree hparams op args false hcols
  | .not arg, hcols => by
      rw [eval, eval]
      rcases eval_agree hparams arg hcols with ⟨a, a', ha, ha', harg⟩ | ⟨e, e', he, he'⟩
      · rcases truth_cases .not harg with ⟨t, ht, ht'⟩ | ⟨e, e', he, he'⟩
        · simp only [ha, ha', ht, ht']
          exact .refl _
        · simp only [ha, ha', he, he']
          exact .inr ⟨e, e', rfl, rfl⟩
      · simp only [he, he']
        exact .inr ⟨e, e', rfl, rfl⟩

/-- Operands that agree settle a connective at the same place. -/
theorem evalJunction_agree (hparams : env.params = env'.params) (op : Junction) :
    ∀ (es : List Expr) (unknown : Bool), (∀ c ∈ columnsOfAll es, AgreeAt env env' c) →
      Agree (evalJunction env op es unknown) (evalJunction env' op es unknown)
  | [], unknown, _ => by
      rw [evalJunction, evalJunction]
      exact .refl _
  | e :: es, unknown, hcols => by
      simp only [columnsOfAll, List.mem_append] at hcols
      have hfirst := eval_agree hparams e (fun c h => hcols c (.inl h))
      have hrest := fun u => evalJunction_agree hparams op es u (fun c h => hcols c (.inr h))
      rw [evalJunction, evalJunction]
      rcases hfirst with ⟨a, a', ha, ha', hfirst⟩ | ⟨e, e', he, he'⟩
      · rcases truth_cases (.junction op) hfirst with ⟨t, ht, ht'⟩ | ⟨e, e', he, he'⟩
        · simp only [ha, ha', ht, ht']
          cases t with
          | none => exact hrest true
          | some b =>
              -- an operand settles the outcome in both environments or in neither
              by_cases hb : b = op.decisive
              · simp only [if_pos hb]
                exact .refl _
              · simp only [if_neg hb]
                exact hrest unknown
        · simp only [ha, ha', he, he']
          exact .inr ⟨e, e', rfl, rfl⟩
      · simp only [he, he']
        exact .inr ⟨e, e', rfl, rfl⟩

end

end Expr

end SortMerge

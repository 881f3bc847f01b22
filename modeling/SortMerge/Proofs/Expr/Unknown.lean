import SortMerge.Expr.Eval

set_option autoImplicit false

/-! # Unknown values decide nothing

Null stands for a value that is not known. Filling such values in, in columns and in parameters, may
turn an unknown outcome into any other, but it keeps a known one: under three-valued logic an
outcome is known only if no unknown operand had a say in it. The one thing that may come in between
is a filled-in value that is no truth value where a connective asks for one, which is an error of
its own kind.

The induction covers unknown outcomes as well. A connective may meet the deciding operand earlier
than before, and an operand that counted as unknown may not count any more; so the second run over
the operands of a connective may have seen nothing unknown where the first one has. -/

namespace SortMerge

/-! ## Filling in -/

/-- The second scalar is the first one, or takes the place of a null. -/
def Scalar.FilledBy (a b : Scalar) : Prop := a = .null ∨ a = b

theorem Scalar.FilledBy.refl (a : Scalar) : a.FilledBy a := .inr rfl

/-- The second row has the cells of the first one, with nulls filled in. -/
structure Row.FilledBy (r s : Row) : Prop where
  width : r.width = s.width
  cell : ∀ c, Option.Rel Scalar.FilledBy (r.cell c) (s.cell c)

/-- The second environment is the first one, with nulls in rows and parameters filled in. -/
structure Env.FilledBy (env env' : Env) : Prop where
  left : env.left.FilledBy env'.left
  right : env.right.FilledBy env'.right
  params : ∀ i : Nat, Option.Rel Scalar.FilledBy env.params[i]? env'.params[i]?

theorem Env.FilledBy.row {env env' : Env} (h : env.FilledBy env') (side : Side) :
    (env.row side).FilledBy (env'.row side) := by
  cases side with
  | left => exact h.left
  | right => exact h.right

/-- Where there was a value there is one again. -/
theorem exists_of_filled {x y : Option Scalar} {a : Scalar} (h : Option.Rel Scalar.FilledBy x y)
    (hx : x = some a) : ∃ b, y = some b ∧ a.FilledBy b := by
  cases h with
  | some hab => exact ⟨_, rfl, Option.some.inj hx ▸ hab⟩
  | none => cases hx

namespace Expr

/-! ## Outcomes -/

/-- What may become of a value when nulls are filled in: it stays, unless it is null, or a
    connective comes upon something that is no truth value. -/
def Becomes (v : Scalar) (x : Except ExprError Scalar) : Prop :=
  (∃ w, x = .ok w ∧ v.FilledBy w) ∨ ∃ op got, x = .error (.notBoolean op got)

theorem Becomes.of_filledBy {v w : Scalar} (h : v.FilledBy w) : Becomes v (.ok w) :=
  .inl ⟨w, rfl, h⟩

theorem Becomes.notBoolean (v : Scalar) (op : Connective) (got : Scalar) :
    Becomes v (.error (.notBoolean op got)) := .inr ⟨op, got, rfl⟩

/-- A comparison is unknown as long as an operand is. -/
theorem compareValues_filledBy (op : Comparison) {a a' b b' : Scalar} (ha : a.FilledBy a')
    (hb : b.FilledBy b') : (compareValues op a b).FilledBy (compareValues op a' b') := by
  rcases ha with rfl | rfl
  · exact .inl rfl
  · rcases hb with rfl | rfl
    · refine .inl ?_
      simp [compareValues, Scalar.isNull]
    · exact .refl _

/-- A scalar is null, or a truth value, or no operand for a connective. -/
theorem null_or_truth (op : Connective) (v : Scalar) :
    v = .null ∨ (∃ b, truth op v = .ok (some b)) ∨ truth op v = .error (.notBoolean op v) := by
  cases v with
  | null => exact .inl rfl
  | bool b => exact .inr (.inl ⟨b, rfl⟩)
  | _ => exact .inr (.inr rfl)

/-- Behind an unknown operand, only a deciding one gives a value that is known. -/
theorem evalJunction_unknown {env : Env} {op : Junction} : ∀ {es : List Expr} {v : Scalar},
    evalJunction env op es true = .ok v → v.FilledBy (.bool op.decisive)
  | [], v, h => by
      rw [evalJunction] at h
      cases h
      exact .inl rfl
  | e :: es, v, h => by
      rw [evalJunction] at h
      split at h
      · cases h
      · split at h
        · cases h
        · exact evalJunction_unknown h
        · split at h
          · next hb =>
              cases h
              exact .inr (hb ▸ rfl)
          · exact evalJunction_unknown h

/-! ## Evaluation -/

variable {env env' : Env}

mutual

/-- Where an expression has a value, filling in keeps the value if it is known, or a connective
    comes upon something that is no truth value. -/
theorem eval_becomes (hfill : env.FilledBy env') : ∀ (e : Expr) {v : Scalar},
    e.eval env = .ok v → Becomes v (e.eval env')
  | .column side index, v, h => by
      rw [eval] at h ⊢
      split at h
      · next a ha =>
          cases h
          obtain ⟨b, hb, hab⟩ := exists_of_filled ((hfill.row side).cell index) ha
          rw [hb]
          exact .of_filledBy hab
      · cases h
  | .literal w, v, h => by
      rw [eval] at h ⊢
      cases h
      exact .of_filledBy (.refl _)
  | .param index, v, h => by
      rw [eval] at h ⊢
      split at h
      · next a ha =>
          cases h
          obtain ⟨b, hb, hab⟩ := exists_of_filled (hfill.params index) ha
          rw [hb]
          exact .of_filledBy hab
      · cases h
  | .compare op l r, v, h => by
      rw [eval] at h ⊢
      split at h
      · cases h
      · next a ha =>
          split at h
          · cases h
          · next b hb =>
              cases h
              rcases eval_becomes hfill l ha with ⟨a', ha', hl⟩ | ⟨c, got, he⟩
              · rcases eval_becomes hfill r hb with ⟨b', hb', hr⟩ | ⟨c, got, he⟩
                · rw [ha', hb']
                  exact .of_filledBy (compareValues_filledBy op hl hr)
                · rw [ha', he]
                  exact .notBoolean _ c got
              · rw [he]
                exact .notBoolean _ c got
  | .junction op args, v, h => by
      rw [eval] at h ⊢
      exact evalJunction_becomes hfill op args id h
  | .not arg, v, h => by
      rw [eval] at h ⊢
      split at h
      · cases h
      · next a ha =>
          rcases eval_becomes hfill arg ha with ⟨a', ha', hfilled⟩ | ⟨c, got, he⟩
          · rw [ha']
            dsimp only
            rcases hfilled with rfl | rfl
            · cases h
              -- an unknown operand may become anything
              rcases null_or_truth .not a' with rfl | ⟨b, hb⟩ | hb
              · exact .of_filledBy (.refl _)
              · rw [hb]
                exact .of_filledBy (.inl rfl)
              · rw [hb]
                exact .notBoolean _ _ _
            · rw [h]
              exact .of_filledBy (.refl _)
          · rw [he]
            exact .notBoolean _ c got

/-- The same over the operands of a connective that are left, where the second run has seen an
    unknown operand only if the first one has. -/
theorem evalJunction_becomes (hfill : env.FilledBy env') (op : Junction) : ∀ (es : List Expr)
    {unknown unknown' : Bool} {v : Scalar}, (unknown' = true → unknown = true) →
      evalJunction env op es unknown = .ok v → Becomes v (evalJunction env' op es unknown')
  | [], unknown, unknown', v, hunknown, h => by
      rw [evalJunction] at h ⊢
      cases h
      cases unknown with
      | true => exact .of_filledBy (.inl rfl)
      | false =>
          have hknown : unknown' = false := by simpa using hunknown
          rw [hknown]
          exact .of_filledBy (.refl _)
  | e :: es, unknown, unknown', v, hunknown, h => by
      rw [evalJunction] at h ⊢
      split at h
      · cases h
      · next a ha =>
          rcases eval_becomes hfill e ha with ⟨a', ha', hfilled⟩ | ⟨c, got, he⟩
          · rw [ha']
            dsimp only
            rcases hfilled with rfl | rfl
            · -- the operand was unknown: now it may decide, count for nothing, or fail
              have hrest (u : Bool) : Becomes v (evalJunction env' op es u) :=
                evalJunction_becomes hfill op es (fun _ => rfl) h
              rcases null_or_truth (.junction op) a' with rfl | ⟨b, hb⟩ | hb
              · exact hrest true
              · rw [hb]
                dsimp only
                split
                · next hdecisive => exact .of_filledBy (hdecisive ▸ evalJunction_unknown h)
                · exact hrest unknown'
              · rw [hb]
                exact .notBoolean _ _ _
            · split at h
              · cases h
              · exact evalJunction_becomes hfill op es (fun _ => rfl) h
              · split at h
                · next hdecisive =>
                    cases h
                    rw [if_pos hdecisive]
                    exact .of_filledBy (.refl _)
                · next hdecisive =>
                    rw [if_neg hdecisive]
                    exact evalJunction_becomes hfill op es hunknown h
          · rw [he]
            exact .notBoolean _ c got

end

/-- A known outcome stays when unknown values are filled in, whatever they are filled in with, or a
    connective comes upon something that is no truth value. -/
theorem eval_eq_of_filledBy {e : Expr} {v : Scalar} (hfill : env.FilledBy env')
    (h : e.eval env = .ok v) (hknown : v ≠ .null) :
    e.eval env' = .ok v ∨ ∃ op got, e.eval env' = .error (.notBoolean op got) := by
  rcases eval_becomes hfill e h with ⟨w, hw, hnull | rfl⟩ | herror
  · exact absurd hnull hknown
  · exact .inl hw
  · exact .inr herror

end Expr

namespace Example

/-- A known price, a budget in the left row, and as parameters an opinion and a flag. -/
def deal (budget opinion : Scalar) : Env :=
  ⟨⟨0, 1, fun c => [budget][c]?⟩, ⟨0, 1, fun c => [Scalar.int32 5][c]?⟩, [opinion, .bool true]⟩

/-- The price is within the budget, or the opinion is in favour, or the flag is set. -/
def agreed : Expr :=
  .junction .or [.not (.compare .gt (.column .right 0) (.column .left 0)), .param 0, .param 1]

theorem filledBy_deal (budget opinion : Scalar) :
    (deal .null .null).FilledBy (deal budget opinion) where
  left := by
    refine ⟨rfl, fun c => ?_⟩
    cases c with
    | zero => exact .some (.inl rfl)
    | succ c => exact .none
  right := by
    refine ⟨rfl, fun c => ?_⟩
    cases c with
    | zero => exact .some (.refl _)
    | succ c => exact .none
  params i := by
    match i with
    | 0 => exact .some (.inl rfl)
    | 1 => exact .some (.refl _)
    | i + 2 => exact .none

end Example

/-- A budget settles the outcome before the opinion is asked for; an opinion that is no truth value
    is an error if it is asked for. -/
theorem eval_eq_of_filledBy_deal :
    (Example.deal .null .null).FilledBy (Example.deal (.int64 7) (.text "yes")) ∧
      (Example.deal .null .null).FilledBy (Example.deal (.int64 3) (.text "yes")) ∧
      Example.agreed.eval (Example.deal .null .null) = .ok (.bool true) ∧
      Scalar.bool true ≠ .null ∧
      Example.agreed.eval (Example.deal (.int64 7) (.text "yes")) = .ok (.bool true) ∧
      ∃ op got, Example.agreed.eval (Example.deal (.int64 3) (.text "yes"))
        = .error (.notBoolean op got) := by
  have hvalue : Example.agreed.eval (Example.deal .null .null) = .ok (.bool true) := rfl
  have hknown : Scalar.bool true ≠ .null := by decide
  have hbudget := Example.filledBy_deal (.int64 7) (.text "yes")
  have hopinion := Example.filledBy_deal (.int64 3) (.text "yes")
  refine ⟨hbudget, hopinion, hvalue, hknown, ?_, ?_⟩
  · refine (Expr.eval_eq_of_filledBy hbudget hvalue hknown).resolve_right ?_
    rintro ⟨op, got, h⟩
    cases h
  · refine (Expr.eval_eq_of_filledBy hopinion hvalue hknown).resolve_left ?_
    intro h
    cases h

end SortMerge

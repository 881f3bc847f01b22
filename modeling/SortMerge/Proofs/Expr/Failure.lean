import SortMerge.Expr.Eval

set_option autoImplicit false

/-! # Why evaluation fails

There are three ways for an expression to have no value: it reads a column that its row does not
have, it reads a parameter that the run does not supply, or an operand of a connective is neither
boolean nor null. A failure of the first two ways is about a reference that stands in the
expression, so the lists of columns and parameters are all that has to be looked at to rule it out
beforehand. -/

namespace SortMerge.Expr

/-- What an error says is true of the environment, and the reference that it names is one of the
    given ones. -/
inductive Justified (env : Env) (cols : List (Side × Nat)) (pars : List Nat) : ExprError → Prop
  | column {side : Side} {index : Nat} (read : (side, index) ∈ cols)
      (empty : (env.row side).cell index = none) :
      Justified env cols pars (.columnOutOfRange side index (env.row side).width)
  | param {index : Nat} (read : index ∈ pars) (unbound : env.params.length ≤ index) :
      Justified env cols pars (.unboundParam index)
  | operand {op : Connective} {got : Scalar} (untrue : truth op got = .error (.notBoolean op got)) :
      Justified env cols pars (.notBoolean op got)

namespace Justified

variable {env : Env} {cols cols' : List (Side × Nat)} {pars pars' : List Nat} {err : ExprError}

theorem mono (h : Justified env cols pars err) (hcols : cols ⊆ cols') (hpars : pars ⊆ pars') :
    Justified env cols' pars' err := by
  cases h with
  | column hread hempty => exact .column (hcols hread) hempty
  | param hread hunbound => exact .param (hpars hread) hunbound
  | operand huntrue => exact .operand huntrue

theorem append_left (h : Justified env cols pars err) :
    Justified env (cols ++ cols') (pars ++ pars') err :=
  h.mono (List.subset_append_left _ _) (List.subset_append_left _ _)

theorem append_right (h : Justified env cols' pars' err) :
    Justified env (cols ++ cols') (pars ++ pars') err :=
  h.mono (List.subset_append_right _ _) (List.subset_append_right _ _)

end Justified

theorem justified_of_truth {env : Env} {cols : List (Side × Nat)} {pars : List Nat}
    {op : Connective} {v : Scalar} {err : ExprError} (h : truth op v = .error err) :
    Justified env cols pars err := by
  have herr : err = .notBoolean op v := by
    cases v <;> simp [truth] at h <;> exact h.symm
  subst herr
  exact .operand h

mutual

/-- An expression fails for a reason that can be found in it. -/
theorem eval_justified {env : Env} : ∀ (e : Expr) {err : ExprError}, e.eval env = .error err →
    Justified env e.columns e.params err
  | .column side index, err, h => by
      rw [eval] at h
      split at h
      · cases h
      · next hempty =>
          cases h
          exact .column (by simp [columns]) hempty
  | .literal v, err, h => by
      rw [eval] at h
      cases h
  | .param index, err, h => by
      rw [eval] at h
      split at h
      · cases h
      · next hunbound =>
          cases h
          exact .param (by simp [params]) (List.getElem?_eq_none_iff.1 hunbound)
  | .compare op l r, err, h => by
      rw [columns, params]
      rw [eval] at h
      split at h
      · next e he =>
          cases h
          exact (eval_justified l he).append_left
      · split at h
        · next e he =>
            cases h
            exact (eval_justified r he).append_right
        · cases h
  | .junction op args, err, h => by
      rw [eval] at h
      exact evalJunction_justified op args false h
  | .not arg, err, h => by
      rw [eval] at h
      split at h
      · next e he =>
          cases h
          exact eval_justified arg he
      · split at h
        · next e he =>
            cases h
            exact justified_of_truth he
        · cases h

/-- Operands are asked one after another, and the first one that fails is the reason. -/
theorem evalJunction_justified {env : Env} (op : Junction) : ∀ (es : List Expr) (unknown : Bool)
    {err : ExprError}, evalJunction env op es unknown = .error err →
    Justified env (columnsOfAll es) (paramsOfAll es) err
  | [], unknown, err, h => by
      rw [evalJunction] at h
      cases h
  | e :: es, unknown, err, h => by
      rw [columnsOfAll, paramsOfAll]
      rw [evalJunction] at h
      split at h
      · next e' he =>
          cases h
          exact (eval_justified e he).append_left
      · split at h
        · next e' he =>
            cases h
            exact justified_of_truth he
        · exact (evalJunction_justified op es true h).append_right
        · split at h
          · cases h
          · exact (evalJunction_justified op es unknown h).append_right

end

end SortMerge.Expr

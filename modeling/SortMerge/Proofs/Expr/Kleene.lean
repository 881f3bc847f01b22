import Mathlib.Data.List.Perm.Basic
import SortMerge.Expr.Eval

set_option autoImplicit false

/-! # Short circuits keep to Kleene's logic

A connective stops at the first operand that settles its outcome. Here it is compared with an
evaluation that looks at every operand, fails if any of them does, and then forms the conjunction or
disjunction of Kleene's three-valued logic. Where that has a value, stopping early gives the same
one: the operands passed over hold nothing decisive, so that the ones not looked at could only have
repeated the outcome. Kleene's connectives do not depend on the order of their operands, and so, for
such inputs, neither does evaluation. -/

namespace SortMerge

/-! ## Kleene's connectives -/

/-- The conjunction or disjunction of truth values: a decisive one settles it, and otherwise one
    that is unknown leaves it unknown. -/
def Junction.kleene (op : Junction) (ts : List (Option Bool)) : Option Bool :=
  if some op.decisive ∈ ts then some op.decisive
  else if none ∈ ts then none
  else some !op.decisive

theorem Junction.kleene_perm (op : Junction) {ts us : List (Option Bool)} (h : ts.Perm us) :
    op.kleene ts = op.kleene us := by
  simp only [kleene, h.mem_iff]

theorem Junction.kleene_of_mem {op : Junction} {ts : List (Option Bool)}
    (h : some op.decisive ∈ ts) : op.kleene ts = some op.decisive := if_pos h

theorem Junction.kleene_of_notMem {op : Junction} {ts : List (Option Bool)}
    (h : some op.decisive ∉ ts) :
    op.kleene ts = if none ∈ ts then none else some !op.decisive := if_neg h

namespace Expr

/-! ## Full evaluation -/

mutual

/-- Evaluation that leaves no operand out. -/
def evalFully (env : Env) : Expr → Except ExprError Scalar
  | .column side index => eval env (.column side index)
  | .literal v => eval env (.literal v)
  | .param index => eval env (.param index)
  | .compare op l r =>
    match evalFully env l with
    | .error e => .error e
    | .ok a =>
      match evalFully env r with
      | .error e => .error e
      | .ok b => .ok (compareValues op a b)
  | .junction op args =>
    match truthsFully env op args with
    | .error e => .error e
    | .ok ts => .ok (ofTruth (op.kleene ts))
  | .not arg =>
    match evalFully env arg with
    | .error e => .error e
    | .ok v =>
      match truth .not v with
      | .error e => .error e
      | .ok t => .ok (ofTruth (t.map Bool.not))

/-- The truth values of all operands of a connective, from left to right. -/
def truthsFully (env : Env) (op : Junction) : List Expr → Except ExprError (List (Option Bool))
  | [] => .ok []
  | e :: es =>
    match evalFully env e with
    | .error err => .error err
    | .ok v =>
      match truth (.junction op) v with
      | .error err => .error err
      | .ok t =>
        match truthsFully env op es with
        | .error err => .error err
        | .ok ts => .ok (t :: ts)

end

/-- The operand has a value, and this truth value. -/
def HasTruth (env : Env) (op : Junction) (e : Expr) (t : Option Bool) : Prop :=
  ∃ v, e.evalFully env = .ok v ∧ truth (.junction op) v = .ok t

section Inversion

variable {env : Env} {op : Junction} {v : Scalar}

theorem evalFully_compare_eq_ok {cmp : Comparison} {l r : Expr} :
    (Expr.compare cmp l r).evalFully env = .ok v ↔
      ∃ a b, l.evalFully env = .ok a ∧ r.evalFully env = .ok b ∧ compareValues cmp a b = v := by
  rw [evalFully]
  cases l.evalFully env with
  | error e => simp
  | ok a => cases r.evalFully env <;> simp

theorem evalFully_junction_eq_ok {args : List Expr} :
    (Expr.junction op args).evalFully env = .ok v ↔
      ∃ ts, truthsFully env op args = .ok ts ∧ ofTruth (op.kleene ts) = v := by
  rw [evalFully]
  cases truthsFully env op args <;> simp

theorem evalFully_not_eq_ok {arg : Expr} :
    (Expr.not arg).evalFully env = .ok v ↔
      ∃ a t, arg.evalFully env = .ok a ∧ truth .not a = .ok t ∧ ofTruth (t.map Bool.not) = v := by
  rw [evalFully]
  cases arg.evalFully env with
  | error e => simp
  | ok a =>
      dsimp only
      cases htruth : truth .not a <;> simp [htruth]

theorem truthsFully_cons_eq_ok {e : Expr} {es : List Expr} {us : List (Option Bool)} :
    truthsFully env op (e :: es) = .ok us ↔
      ∃ t ts, HasTruth env op e t ∧ truthsFully env op es = .ok ts ∧ us = t :: ts := by
  rw [truthsFully]
  cases he : e.evalFully env with
  | error err => simp [HasTruth, he]
  | ok v =>
      dsimp only
      cases ht : truth (.junction op) v with
      | error err => simp [HasTruth, he, ht]
      | ok t =>
          cases truthsFully env op es with
          | error err => simp
          | ok ts => simp [HasTruth, he, ht, eq_comm]

/-- There are truth values for all operands exactly if there is one for each. -/
theorem truthsFully_eq_ok_iff {es : List Expr} {ts : List (Option Bool)} :
    truthsFully env op es = .ok ts ↔ List.Forall₂ (HasTruth env op) es ts := by
  induction es generalizing ts with
  | nil => simp [truthsFully, eq_comm]
  | cons e es ih =>
      simp only [truthsFully_cons_eq_ok, List.forall₂_cons_left_iff, ih]

end Inversion

/-! ## Stopping early -/

mutual

/-- Where full evaluation has a value, so has evaluation, and it is the same. -/
theorem eval_of_evalFully {env : Env} : ∀ (e : Expr) {v : Scalar}, e.evalFully env = .ok v →
    e.eval env = .ok v
  | .column side index, v, h | .literal w, v, h | .param index, v, h => by
      rw [evalFully] at h
      exact h
  | .compare op l r, v, h => by
      obtain ⟨a, b, ha, hb, rfl⟩ := evalFully_compare_eq_ok.1 h
      simp only [eval, eval_of_evalFully l ha, eval_of_evalFully r hb]
  | .junction op args, v, h => by
      obtain ⟨ts, hts, rfl⟩ := evalFully_junction_eq_ok.1 h
      rw [eval]
      have hunseen : some op.decisive ∉ ([] : List (Option Bool)) := List.not_mem_nil
      exact evalJunction_of_truthsFully op args hunseen hts
  | .not arg, v, h => by
      obtain ⟨a, t, ha, ht, rfl⟩ := evalFully_not_eq_ok.1 h
      simp only [eval, eval_of_evalFully arg ha, ht]

/-- A connective that has seen some operands, none of them decisive, comes to what Kleene's
    connective makes of those and of the rest. -/
theorem evalJunction_of_truthsFully {env : Env} (op : Junction) : ∀ (es : List Expr)
    {seen ts : List (Option Bool)}, some op.decisive ∉ seen → truthsFully env op es = .ok ts →
      evalJunction env op es (decide (none ∈ seen)) = .ok (ofTruth (op.kleene (seen ++ ts)))
  | [], seen, ts, hseen, h => by
      cases h
      rw [evalJunction, List.append_nil, Junction.kleene_of_notMem hseen]
      simp only [decide_eq_true_eq]
  | e :: es, seen, us, hseen, h => by
      obtain ⟨t, ts, ⟨v, hv, ht⟩, hts, rfl⟩ := truthsFully_cons_eq_ok.1 h
      simp only [evalJunction, eval_of_evalFully e hv, ht]
      -- the operand joins the ones seen, unless it settles the outcome
      have hrest (hne : t ≠ some op.decisive) :
          evalJunction env op es (decide (none ∈ seen ++ [t]))
            = .ok (ofTruth (op.kleene (seen ++ t :: ts))) := by
        have hseen' : some op.decisive ∉ seen ++ [t] := by
          simp [hseen, Ne.symm hne]
        rw [evalJunction_of_truthsFully op es hseen' hts, List.append_assoc, List.singleton_append]
      match t with
      | none => simpa using hrest (by simp)
      | some b =>
          by_cases hb : b = op.decisive
          · subst hb
            rw [Junction.kleene_of_mem (by simp)]
            exact if_pos rfl
          · simpa [hb] using hrest (by simpa using hb)

end

/-! ## The order of operands -/

mutual

/-- The same tree, up to the order of the operands of its connectives, at any number of places. -/
inductive Rearranged : Expr → Expr → Prop
  | column (side : Side) (index : Nat) : Rearranged (.column side index) (.column side index)
  | literal (v : Scalar) : Rearranged (.literal v) (.literal v)
  | param (index : Nat) : Rearranged (.param index) (.param index)
  | compare (op : Comparison) {l l' r r' : Expr} (left : Rearranged l l')
      (right : Rearranged r r') : Rearranged (.compare op l r) (.compare op l' r')
  | junction (op : Junction) {args mid args' : List Expr} (inside : RearrangedAll args mid)
      (order : mid.Perm args') : Rearranged (.junction op args) (.junction op args')
  | not {arg arg' : Expr} (inside : Rearranged arg arg') : Rearranged (.not arg) (.not arg')

/-- The same trees in the same order, up to the order of operands inside them. -/
inductive RearrangedAll : List Expr → List Expr → Prop
  | nil : RearrangedAll [] []
  | cons {e e' : Expr} {es es' : List Expr} (head : Rearranged e e') (tail : RearrangedAll es es') :
      RearrangedAll (e :: es) (e' :: es')

end

mutual

theorem Rearranged.refl : ∀ e : Expr, Rearranged e e
  | .column side index => .column side index
  | .literal v => .literal v
  | .param index => .param index
  | .compare op l r => .compare op (.refl l) (.refl r)
  | .junction op args => .junction op (.refl args) (.refl args)
  | .not arg => .not (.refl arg)

theorem RearrangedAll.refl : ∀ es : List Expr, RearrangedAll es es
  | [] => .nil
  | e :: es => .cons (.refl e) (.refl es)

end

/-- Operands in another order have the same truth values in that order. -/
theorem truthsFully_perm {env : Env} {op : Junction} {es es' : List Expr} {ts : List (Option Bool)}
    (hperm : es.Perm es') (h : truthsFully env op es = .ok ts) :
    ∃ ts', ts.Perm ts' ∧ truthsFully env op es' = .ok ts' := by
  obtain ⟨ts', hall, hts⟩ := List.perm_comp_forall₂ hperm.symm (truthsFully_eq_ok_iff.1 h)
  exact ⟨ts', hts.symm, truthsFully_eq_ok_iff.2 hall⟩

mutual

/-- Full evaluation does not depend on the order of operands. -/
theorem evalFully_rearranged {env : Env} : ∀ {e e' : Expr} {v : Scalar}, Rearranged e e' →
    e.evalFully env = .ok v → e'.evalFully env = .ok v
  | _, _, _, .column side index, h | _, _, _, .literal w, h | _, _, _, .param index, h => h
  | _, _, _, .compare op left right, h => by
      obtain ⟨a, b, ha, hb, hv⟩ := evalFully_compare_eq_ok.1 h
      exact evalFully_compare_eq_ok.2
        ⟨a, b, evalFully_rearranged left ha, evalFully_rearranged right hb, hv⟩
  | _, _, _, .junction op inside order, h => by
      obtain ⟨ts, hts, hv⟩ := evalFully_junction_eq_ok.1 h
      obtain ⟨ts', hperm, hts'⟩ := truthsFully_perm order (truthsFully_rearranged inside hts)
      exact evalFully_junction_eq_ok.2 ⟨ts', hts', op.kleene_perm hperm ▸ hv⟩
  | _, _, _, .not inside, h => by
      obtain ⟨a, t, ha, ht, hv⟩ := evalFully_not_eq_ok.1 h
      exact evalFully_not_eq_ok.2 ⟨a, t, evalFully_rearranged inside ha, ht, hv⟩

theorem truthsFully_rearranged {env : Env} {op : Junction} : ∀ {es es' : List Expr}
    {ts : List (Option Bool)}, RearrangedAll es es' → truthsFully env op es = .ok ts →
      truthsFully env op es' = .ok ts
  | _, _, _, .nil, h => h
  | _, _, _, .cons head tail, h => by
      obtain ⟨t, ts, ⟨v, hv, ht⟩, hts, rfl⟩ := truthsFully_cons_eq_ok.1 h
      exact truthsFully_cons_eq_ok.2
        ⟨t, ts, ⟨v, evalFully_rearranged head hv, ht⟩, truthsFully_rearranged tail hts, rfl⟩

end

/-- Where full evaluation has a value, evaluation gives this value too, and it goes on to do so
    however the operands of connectives are rearranged, anywhere in the expression. -/
theorem eval_eq_of_evalFully {env : Env} {e : Expr} {v : Scalar} (h : e.evalFully env = .ok v) :
    e.eval env = .ok v ∧ ∀ e', Rearranged e e' → e'.eval env = .ok v :=
  ⟨eval_of_evalFully e h, fun e' he => eval_of_evalFully e' (evalFully_rearranged he h)⟩

end Expr

namespace Example

/-- A row with an unknown quantity, one with a known price, and a flag that is set. -/
def offer : Env :=
  ⟨⟨0, 1, fun c => [Scalar.null][c]?⟩, ⟨0, 1, fun c => [Scalar.int32 5][c]?⟩, [.bool true]⟩

def affordable : Expr := .compare .le (.column .right 0) (.column .left 0)

/-- Two unknown operands, and then one that settles the outcome. -/
def accepted : Expr :=
  .junction .or [.not affordable, .junction .and [affordable, .param 0], .param 0]

/-- The same with the deciding operand first, and the inner operands exchanged. -/
def acceptedAtOnce : Expr :=
  .junction .or [.param 0, .not affordable, .junction .and [.param 0, affordable]]

theorem rearranged_accepted : Expr.Rearranged accepted acceptedAtOnce := by
  have hlast : ∀ a b c : Expr, [a, b, c].Perm [c, a, b] := fun a b c =>
    (List.perm_append_comm : ([a, b] ++ [c]).Perm ([c] ++ [a, b]))
  refine .junction .or (.cons (.refl _) (.cons ?_ (.cons (.refl _) .nil))) (hlast _ _ _)
  exact .junction .and (.refl _) (List.Perm.swap _ _ _)

end Example

/-- Neither the two unknown operands nor their place makes a difference. -/
theorem eval_eq_of_evalFully_accepted :
    Example.accepted.evalFully Example.offer = .ok (.bool true) ∧
      Example.accepted.eval Example.offer = .ok (.bool true) ∧
      Example.acceptedAtOnce.eval Example.offer = .ok (.bool true) := by
  have hfull : Example.accepted.evalFully Example.offer = .ok (.bool true) := rfl
  obtain ⟨heval, hrearranged⟩ := Expr.eval_eq_of_evalFully hfull
  exact ⟨hfull, heval, hrearranged _ Example.rearranged_accepted⟩

end SortMerge

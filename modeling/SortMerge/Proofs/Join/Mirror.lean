import Mathlib.Data.List.Perm.Basic
import SortMerge.Proofs.Join.NestedLoop

set_option autoImplicit false

/-! # Exchanging the sides

Neither evaluation nor merging prefers one side. What they do on exchanged rows and tiles, with the
column references moved to the other side, is what they do without that. Only an error may differ:
in the side that it names, and if both sides have one, in which of the two is met first. -/

namespace SortMerge

/-! ## Expressions

An expression whose column references are moved to the other side does on exchanged rows what the
expression itself does; an error is the same, up to the side that it names. -/

def Side.other : Side → Side
  | .left => .right
  | .right => .left

/-- The rows exchanged, with the same parameters. -/
def Env.mirror (env : Env) : Env := ⟨env.right, env.left, env.params⟩

@[simp] theorem Env.row_mirror (env : Env) (side : Side) :
    env.mirror.row side.other = env.row side := by
  cases side <;> rfl

/-- The error with the side that it names exchanged. -/
def ExprError.mirror : ExprError → ExprError
  | .columnOutOfRange side index columns => .columnOutOfRange side.other index columns
  | .unboundParam index => .unboundParam index
  | .notBoolean op got => .notBoolean op got

@[simp] theorem mapError_ok {ε ε' α : Type} (f : ε → ε') (a : α) :
    (Except.ok a).mapError f = .ok a := rfl

@[simp] theorem mapError_error {ε ε' α : Type} (f : ε → ε') (e : ε) :
    (Except.error e : Except ε α).mapError f = .error (f e) := rfl

namespace Expr

mutual

/-- The expression with every column reference moved to the other side. -/
def mirror : Expr → Expr
  | .column side index => .column side.other index
  | .literal v => .literal v
  | .param index => .param index
  | .compare op l r => .compare op l.mirror r.mirror
  | .junction op args => .junction op (mirrorAll args)
  | .not arg => .not arg.mirror

def mirrorAll : List Expr → List Expr
  | [] => []
  | e :: es => e.mirror :: mirrorAll es

end

/-- A value that is no truth value is reported without a side. -/
theorem mirror_of_truth {op : Connective} {v : Scalar} {err : ExprError}
    (h : truth op v = .error err) : err.mirror = err := by
  cases v <;> simp [truth] at h <;> rw [← h] <;> rfl

mutual

theorem eval_mirror (env : Env) : ∀ e : Expr,
    e.mirror.eval env.mirror = (e.eval env).mapError ExprError.mirror
  | .column side index => by
      rw [mirror, eval, eval, Env.row_mirror]
      cases (env.row side).cell index <;> rfl
  | .literal v => by
      rw [mirror, eval, eval]
      rfl
  | .param index => by
      rw [mirror, eval, eval, Env.mirror]
      cases env.params[index]? <;> rfl
  | .compare op l r => by
      rw [mirror, eval, eval, eval_mirror env l, eval_mirror env r]
      cases l.eval env with
      | error e => rfl
      | ok a => cases r.eval env <;> rfl
  | .junction op args => by
      rw [mirror, eval, eval]
      exact evalJunction_mirror env op args false
  | .not arg => by
      rw [mirror, eval, eval, eval_mirror env arg]
      cases arg.eval env with
      | error e => rfl
      | ok v =>
          simp only [mapError_ok]
          cases htruth : truth .not v with
          | error e => simp only [mapError_error, mirror_of_truth htruth]
          | ok t => rfl

theorem evalJunction_mirror (env : Env) (op : Junction) : ∀ (es : List Expr) (unknown : Bool),
    evalJunction env.mirror op (mirrorAll es) unknown
      = (evalJunction env op es unknown).mapError ExprError.mirror
  | [], unknown => by
      rw [mirrorAll, evalJunction, evalJunction]
      rfl
  | e :: es, unknown => by
      have hrest := evalJunction_mirror env op es
      rw [mirrorAll, evalJunction, evalJunction, eval_mirror env e]
      cases e.eval env with
      | error e => rfl
      | ok v =>
          simp only [mapError_ok]
          cases htruth : truth (.junction op) v with
          | error e => simp only [mapError_error, mirror_of_truth htruth]
          | ok t =>
              cases t with
              | none => exact hrest true
              | some b =>
                  by_cases hb : b = op.decisive
                  · simp only [if_pos hb, mapError_ok]
                  · simp only [if_neg hb]
                    exact hrest unknown

end

end Expr

/-! ## Merging

A merge treats the two sides by separate rules: one for each side that may be behind, one for each
walk that may fail, the left one first. Here the same merge is run with the sides exchanged, the
tiles, the halves of every clause and the column references alike. It takes the same steps with the
sides exchanged, finds the same matches in the same order, and goes through exactly if the other one
does; the clauses need not be valid nor the tiles sorted. Only which error is reported may differ,
since a step with errors on both sides reports the one it meets first. -/

/-- The clause with its halves exchanged, each reading the other side. -/
def Clause.mirror (c : Clause) : Clause := ⟨c.right.mirror, c.left.mirror⟩

/-- The plan with the sides exchanged. -/
def Plan.mirror (p : Plan) : Plan := ⟨p.clauses.map Clause.mirror, p.predicate.map Expr.mirror⟩

@[simp] theorem Plan.mirror_clauses (p : Plan) :
    p.mirror.clauses = p.clauses.map Clause.mirror := rfl

/-! ### Orders -/

section Orders

variable {first second first' second' : Clause → Except ExprError Scalar}

/-- Comparing mirrored clauses, whose values are the mirrored ones, mirrors the outcome. -/
theorem orderBy_map_mirror {cs : List Clause}
    (h₁ : ∀ c : Clause, first' c.mirror = (first c).mapError ExprError.mirror)
    (h₂ : ∀ c : Clause, second' c.mirror = (second c).mapError ExprError.mirror) :
    orderBy first' second' (cs.map Clause.mirror)
      = (orderBy first second cs).mapError ExprError.mirror := by
  induction cs with
  | nil => rfl
  | cons c cs ih =>
      rw [List.map_cons, orderBy, orderBy, h₁, h₂]
      cases first c with
      | error e => rfl
      | ok a =>
          cases second c with
          | error e => rfl
          | ok b =>
              simp only [mapError_ok]
              cases a.compare b with
              | lt => rfl
              | eq => exact ih
              | gt => rfl

/-- Comparing in the other direction reverses the outcome. Both directions fail on the same clauses,
    though not always with the same error. -/
theorem toOption_orderBy_swap (cs : List Clause) :
    (orderBy second first cs).toOption = (orderBy first second cs).toOption.map Ordering.swap := by
  induction cs with
  | nil => rfl
  | cons c cs ih =>
      rw [orderBy, orderBy]
      cases first c with
      | error e => cases second c <;> rfl
      | ok a =>
          cases second c with
          | error e => rfl
          | ok b =>
              have hswap : b.compare a = (a.compare b).swap := Std.OrientedCmp.eq_swap
              simp only [hswap]
              cases a.compare b with
              | lt => rfl
              | eq => exact ih
              | gt => rfl

end Orders

theorem Clause.key_mirror (c : Clause) (side : Side) (r : Row) :
    c.mirror.key side.other r = (c.key side r).mapError ExprError.mirror := by
  cases side with
  | left => exact Expr.eval_mirror ⟨r, r, []⟩ c.left
  | right => exact Expr.eval_mirror ⟨r, r, []⟩ c.right

theorem keyOrder_mirror (cs : List Clause) (side : Side) (a b : Row) :
    keyOrder (cs.map Clause.mirror) side.other a b
      = (keyOrder cs side a b).mapError ExprError.mirror :=
  orderBy_map_mirror (fun c => c.key_mirror side a) (fun c => c.key_mirror side b)

theorem toOption_pairOrder_mirror (cs : List Clause) (l r : Row) :
    (pairOrder (cs.map Clause.mirror) r l).toOption
      = (pairOrder cs l r).toOption.map Ordering.swap := by
  have hmirror : pairOrder (cs.map Clause.mirror) r l
      = (orderBy (fun c => c.right.eval ⟨l, r, []⟩) (fun c => c.left.eval ⟨l, r, []⟩)
          cs).mapError ExprError.mirror :=
    orderBy_map_mirror (fun c => Expr.eval_mirror ⟨l, r, []⟩ c.right)
      (fun c => Expr.eval_mirror ⟨l, r, []⟩ c.left)
  have hforget : ∀ x : Except ExprError Ordering,
      (x.mapError ExprError.mirror).toOption = x.toOption := by
    intro x
    cases x <;> rfl
  rw [hmirror, hforget, toOption_orderBy_swap, pairOrder]

/-- A right row against a left one, by mirrored clauses, is the reverse of the left row against the
    right one. -/
theorem pairOrder_mirror_ok {cs : List Clause} {l r : Row} {o : Ordering}
    (h : pairOrder cs l r = .ok o) : pairOrder (cs.map Clause.mirror) r l = .ok o.swap := by
  have hswap := toOption_pairOrder_mirror cs l r
  rw [h] at hswap
  cases hmirror : pairOrder (cs.map Clause.mirror) r l with
  | error e =>
      rw [hmirror] at hswap
      cases hswap
  | ok o' =>
      rw [hmirror] at hswap
      exact congrArg _ (Option.some.inj hswap)

theorem pairOrder_mirror_error {cs : List Clause} {l r : Row} {e : ExprError}
    (h : pairOrder cs l r = .error e) :
    ∃ e', pairOrder (cs.map Clause.mirror) r l = .error e' := by
  have hswap := toOption_pairOrder_mirror cs l r
  rw [h] at hswap
  cases hmirror : pairOrder (cs.map Clause.mirror) r l with
  | error e' => exact ⟨e', rfl⟩
  | ok o =>
      rw [hmirror] at hswap
      cases hswap

/-! ### Walks -/

section Walks

variable (cs : List Clause) (side : Side) (t : Tile)

theorem groupEndFrom_mirror (remaining row : Nat) :
    groupEndFrom (cs.map Clause.mirror) side.other t remaining row
      = (groupEndFrom cs side t remaining row).mapError ExprError.mirror := by
  induction remaining generalizing row with
  | zero => rfl
  | succ remaining ih =>
      rw [groupEndFrom, groupEndFrom, keyOrder_mirror]
      cases keyOrder cs side (t.row (row - 1)) (t.row row) with
      | error e => rfl
      | ok o =>
          cases o with
          | lt => rfl
          | eq => exact ih (row + 1)
          | gt => rfl

theorem groupEnd_mirror (start : Nat) :
    groupEnd (cs.map Clause.mirror) side.other t start
      = (groupEnd cs side t start).mapError ExprError.mirror := by
  unfold groupEnd
  split
  · rfl
  · exact groupEndFrom_mirror cs side t _ _

theorem groupsFrom_mirror (bound start : Nat) :
    groupsFrom (cs.map Clause.mirror) side.other t bound start
      = (groupsFrom cs side t bound start).map id (Option.map ExprError.mirror) := by
  induction bound generalizing start with
  | zero => rfl
  | succ bound ih =>
      rw [groupsFrom, groupsFrom, groupEnd_mirror]
      split
      · rfl
      · cases groupEnd cs side t start with
        | error e => rfl
        | ok stop => simp only [mapError_ok, ih, Trail.map, id_eq]

/-- A tile has the same groups on either side. -/
theorem groups_mirror :
    groups (cs.map Clause.mirror) side.other t
      = (groups cs side t).map id (Option.map ExprError.mirror) :=
  groupsFrom_mirror cs side t _ _

end Walks

/-! ### Matches -/

namespace Match

/-- The match with the sides exchanged. -/
def mirror (m : Match) : Match := ⟨m.right, m.left, m.kept⟩

/-- The pairs of rows of a match, the right row first and varying slowest. -/
def transposed (m : Match) : List (Nat × Nat) :=
  m.right.rows.flatMap fun r => m.left.rows.map fun l => (r, l)

theorem pairs_mirror (m : Match) : m.mirror.pairs = m.transposed := rfl

/-- The transposed pairs are the pairs of the match, each of them exchanged. -/
theorem transposed_perm (m : Match) : m.transposed.Perm (m.pairs.map Prod.swap) := by
  have htransposed : m.transposed.Nodup := m.mirror.pairs_pairwise.nodup
  have hswapped : (m.pairs.map Prod.swap).Nodup := m.pairs_pairwise.nodup.map Prod.swap_injective
  rw [List.perm_ext_iff_of_nodup htransposed hswapped]
  intro q
  obtain ⟨r, l⟩ := q
  rw [← pairs_mirror, mem_pairs, List.mem_map]
  constructor
  · rintro ⟨hr, hl⟩
    exact ⟨(l, r), mem_pairs.2 ⟨hl, hr⟩, rfl⟩
  · rintro ⟨q, hq, heq⟩
    cases heq
    exact (mem_pairs.1 hq).symm

end Match

theorem Plan.accepts_mirror (p : Plan) (params : List Scalar) (l r : Row) :
    p.mirror.accepts params r l = (p.accepts params l r).mapError ExprError.mirror := by
  unfold Plan.accepts Plan.mirror
  cases p.predicate with
  | none => rfl
  | some e =>
      have heval : e.mirror.eval ⟨r, l, params⟩
          = (e.eval ⟨l, r, params⟩).mapError ExprError.mirror :=
        Expr.eval_mirror ⟨l, r, params⟩ e
      simp only [Option.map_some, heval]
      cases e.eval ⟨l, r, params⟩ <;> rfl

/-! ### Merges -/

/-- The second merge finds the matches of the first one with the sides exchanged, and fails exactly
    if that one does. -/
structure Mirrors (t t' : Trail (Option ExprError) Match) : Prop where
  matched : t'.toList = t.toList.map Match.mirror
  ending : t'.ending = none ↔ t.ending = none

theorem mirrors_failed (e e' : ExprError) : Mirrors (.stop (some e)) (.stop (some e')) :=
  ⟨rfl, by simp [Trail.ending]⟩

theorem mirrors_end : Mirrors (.stop none) (.stop none) := ⟨rfl, Iff.rfl⟩

theorem Mirrors.step {t t' : Trail (Option ExprError) Match} (h : Mirrors t t') (m : Match) :
    Mirrors (.step m t) (.step m.mirror t') :=
  ⟨congrArg (m.mirror :: ·) h.matched, h.ending⟩

variable {p : Plan} {params : List Scalar} {left right : Tile}

/-- One step of a merge mirrors one step of the mirrored merge, whichever side it moves. -/
theorem mergeGroups_mirror (gs hs : Trail (Option ExprError) Group) :
    Mirrors (p.mergeGroups params left right gs hs)
      (p.mirror.mergeGroups params right left (hs.map id (Option.map ExprError.mirror))
        (gs.map id (Option.map ExprError.mirror))) := by
  fun_induction Plan.mergeGroups p params left right gs hs with
  | case1 e hs =>
      -- the mirrored merge meets an error of the other walk first, if there is one
      cases hs with
      | stop ending =>
          cases ending with
          | none => simpa [Trail.map, Plan.mergeGroups] using mirrors_failed e e.mirror
          | some e' => simpa [Trail.map, Plan.mergeGroups] using mirrors_failed e e'.mirror
      | step h hs => simpa [Trail.map, Plan.mergeGroups] using mirrors_failed e e.mirror
  | case2 gs e hgs => simpa [Trail.map, Plan.mergeGroups] using mirrors_failed e e.mirror
  | case3 hs hhs =>
      cases hs with
      | stop ending =>
          cases ending with
          | none => simpa [Trail.map, Plan.mergeGroups] using mirrors_end
          | some e => exact absurd rfl (hhs e)
      | step h hs => simpa [Trail.map, Plan.mergeGroups] using mirrors_end
  | case4 gs hgs hne =>
      cases gs with
      | stop ending =>
          cases ending with
          | none => exact absurd rfl hne
          | some e => exact absurd rfl (hgs e)
      | step g gs => simpa [Trail.map, Plan.mergeGroups] using mirrors_end
  | case5 g gs h hs l r e he =>
      obtain ⟨e', he'⟩ := pairOrder_mirror_error he
      simp only [Trail.map, id_eq]
      rw [Plan.mergeGroups]
      simp only [Plan.mirror_clauses, he', l, r]
      exact mirrors_failed e e'
  | case6 g gs h hs l r hlt ih =>
      have hgt := pairOrder_mirror_ok hlt
      simp only [Trail.map, id_eq] at ih ⊢
      rw [Plan.mergeGroups]
      simp only [Plan.mirror_clauses, hgt, Ordering.swap, l, r]
      exact ih
  | case7 g gs h hs l r hgt ih =>
      have hlt := pairOrder_mirror_ok hgt
      simp only [Trail.map, id_eq] at ih ⊢
      rw [Plan.mergeGroups]
      simp only [Plan.mirror_clauses, hlt, Ordering.swap, l, r]
      exact ih
  | case8 g gs h hs l r heq e he =>
      have heq' := pairOrder_mirror_ok heq
      have he' := p.accepts_mirror params l r
      simp only [Trail.map, id_eq]
      rw [Plan.mergeGroups]
      simp only [Plan.mirror_clauses, heq', he', he, Ordering.swap, mapError_error, l, r]
      exact mirrors_failed e e.mirror
  | case9 g gs h hs l r heq kept hkept ih =>
      have heq' := pairOrder_mirror_ok heq
      have hkept' := p.accepts_mirror params l r
      simp only [Trail.map, id_eq]
      rw [Plan.mergeGroups]
      simp only [Plan.mirror_clauses, heq', hkept', hkept, Ordering.swap, mapError_ok, l, r]
      exact ih.step ⟨g, h, kept⟩

theorem mirrors_merge (p : Plan) (params : List Scalar) (left right : Tile) :
    Mirrors (p.merge params left right) (p.mirror.merge params right left) := by
  have hleft := groups_mirror p.clauses .right right
  have hright := groups_mirror p.clauses .left left
  simp only [Side.other] at hleft hright
  rw [Plan.merge, Plan.merge, Plan.mirror_clauses, hleft, hright]
  exact mergeGroups_mirror _ _

/-! ### Counts and pairs -/

theorem keptMatches_map_mirror (ms : List Match) :
    keptMatches (ms.map Match.mirror) = (keptMatches ms).map Match.mirror := by
  rw [keptMatches, keptMatches, List.filter_map]
  rfl

theorem productSizes_map_mirror (ms : List Match) :
    productSizes (ms.map Match.mirror) = productSizes ms := by
  induction ms with
  | nil => rfl
  | cons m ms ih =>
      rw [List.map_cons, productSizes, productSizes, ih, Match.mirror]
      rw [Nat.mul_comm]

theorem ofMatches_map_mirror (ms : List Match) :
    PassStats.ofMatches (ms.map Match.mirror) = PassStats.ofMatches ms := by
  have hdropped : ((ms.map Match.mirror).filter (!·.kept)).length
      = (ms.filter (!·.kept)).length := by
    rw [List.filter_map, List.length_map]
    rfl
  rw [PassStats.ofMatches, PassStats.ofMatches, keptMatches_map_mirror, productSizes_map_mirror,
    List.length_map, hdropped]

theorem emittedPairs_map_mirror (ms : List Match) :
    emittedPairs (ms.map Match.mirror) = (keptMatches ms).flatMap Match.transposed := by
  rw [emittedPairs, keptMatches_map_mirror, List.flatMap_map]
  rfl

theorem transposed_perm_emittedPairs (ms : List Match) :
    ((keptMatches ms).flatMap Match.transposed).Perm ((emittedPairs ms).map Prod.swap) := by
  rw [emittedPairs, List.map_flatMap]
  exact List.Perm.flatMap_left _ fun m _ => m.transposed_perm

/-- Exchanging the sides of a merge exchanges the sides of what it finds. The mirrored merge goes
    through exactly if the merge does, finds the same matches in the same order with their groups
    exchanged, and has the same counts. It emits the same products in the same order, each one
    transposed, and so the same pairs exchanged. -/
theorem merge_mirror (p : Plan) (params : List Scalar) (left right : Tile) :
    ((p.mirror.merge params right left).ending = none ↔
        (p.merge params left right).ending = none) ∧
      (p.mirror.merge params right left).toList
        = (p.merge params left right).toList.map Match.mirror ∧
      PassStats.ofMatches (p.mirror.merge params right left).toList
        = PassStats.ofMatches (p.merge params left right).toList ∧
      emittedPairs (p.mirror.merge params right left).toList
        = (keptMatches (p.merge params left right).toList).flatMap Match.transposed ∧
      (emittedPairs (p.mirror.merge params right left).toList).Perm
        ((emittedPairs (p.merge params left right).toList).map Prod.swap) := by
  have hmirrors := mirrors_merge p params left right
  refine ⟨hmirrors.ending, hmirrors.matched, ?_, ?_, ?_⟩
  · rw [hmirrors.matched, ofMatches_map_mirror]
  · rw [hmirrors.matched, emittedPairs_map_mirror]
  · rw [hmirrors.matched, emittedPairs_map_mirror]
    exact transposed_perm_emittedPairs _

example : Match.pairs ⟨⟨0, 2⟩, ⟨5, 7⟩, true⟩ = [(0, 5), (0, 6), (1, 5), (1, 6)] ∧
    Match.transposed ⟨⟨0, 2⟩, ⟨5, 7⟩, true⟩ = [(5, 0), (5, 1), (6, 0), (6, 1)] := by
  decide

end SortMerge

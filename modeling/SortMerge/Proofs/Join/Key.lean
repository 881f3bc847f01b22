import SortMerge.Join.Group
import SortMerge.Proofs.Expr.Agreement
import SortMerge.Proofs.Plan.Validity

set_option autoImplicit false

/-! # Keys as lists of values

The two comparisons of rows, `keyOrder` inside one tile and `pairOrder` across two, evaluate the
same halves in different environments. For clauses that read their own side only, and on rows on
which every half has a value, both are one total preorder: the lexicographic order `compareKeys` of
the lists of key values. -/

namespace SortMerge

/-! ## Comparing clause by clause -/

/-- The lexicographic order of lists of values. -/
def compareKeys : List Scalar → List Scalar → Ordering := List.compareLex Scalar.compare

instance : Std.TransCmp compareKeys := inferInstanceAs (Std.TransCmp (List.compareLex _))

variable {first second : Clause → Except ExprError Scalar}

/-- Comparing clause by clause depends on the values of the given clauses only. -/
theorem orderBy_congr {first' second' : Clause → Except ExprError Scalar} {cs : List Clause}
    (h₁ : ∀ c ∈ cs, first c = first' c) (h₂ : ∀ c ∈ cs, second c = second' c) :
    orderBy first second cs = orderBy first' second' cs := by
  induction cs with
  | nil => rfl
  | cons c cs ih =>
      have hrest := ih (fun d hd => h₁ d (List.mem_cons_of_mem _ hd))
        (fun d hd => h₂ d (List.mem_cons_of_mem _ hd))
      rw [orderBy, orderBy, h₁ c List.mem_cons_self, h₂ c List.mem_cons_self, hrest]

/-- Where every clause has both values, comparing clause by clause is the lexicographic order. -/
theorem orderBy_eq_compareKeys {f g : Clause → Scalar} {cs : List Clause}
    (hf : ∀ c ∈ cs, first c = .ok (f c)) (hg : ∀ c ∈ cs, second c = .ok (g c)) :
    orderBy first second cs = .ok (compareKeys (cs.map f) (cs.map g)) := by
  induction cs with
  | nil => rfl
  | cons c cs ih =>
      have hrest := ih (fun d hd => hf d (List.mem_cons_of_mem _ hd))
        (fun d hd => hg d (List.mem_cons_of_mem _ hd))
      rw [orderBy, hf c List.mem_cons_self, hg c List.mem_cons_self, hrest, compareKeys,
        List.map_cons, List.map_cons, List.compareLex_cons_cons]
      cases hc : (f c).compare (g c) <;> simp [hc]

/-- The outcome is equality exactly if every clause has two values that compare equal. -/
theorem orderBy_eq_ok_eq_iff {cs : List Clause} :
    orderBy first second cs = .ok .eq ↔
      ∀ c ∈ cs, ∃ a b, first c = .ok a ∧ second c = .ok b ∧ a.compare b = .eq := by
  induction cs with
  | nil => simp [orderBy]
  | cons c cs ih =>
      rw [orderBy, List.forall_mem_cons, ← ih]
      cases ha : first c with
      | error e => simp
      | ok a =>
          cases hb : second c with
          | error e => simp
          | ok b => cases hab : a.compare b <;> simp [hab]

/-! ## Keys of rows -/

/-- Whether two rows, each of the side that is named before it, have equal keys: every clause has
    values on both of them, and these compare equal. -/
def sameKey (clauses : List Clause) (s : Side) (a : Row) (s' : Side) (b : Row) : Bool :=
  clauses.all fun c =>
    match c.key s a, c.key s' b with
    | .ok x, .ok y => x.compare y == .eq
    | _, _ => false

/-- Every half of the side has a value on every row of the tile. -/
def HasKeys (clauses : List Clause) (side : Side) (t : Tile) : Prop :=
  ∀ i < t.rowCount, ∀ c ∈ clauses, ∃ v, c.key side (t.row i) = .ok v

/-- No row of the tile sorts before the one above it. -/
def SortedOn (clauses : List Clause) (side : Side) (t : Tile) : Prop :=
  ∀ i, i + 1 < t.rowCount → keyOrder clauses side (t.row i) (t.row (i + 1)) ≠ .ok .gt

instance (clauses : List Clause) (side : Side) (t : Tile) : Decidable (HasKeys clauses side t) :=
  decidable_of_iff
    (∀ i < t.rowCount, ∀ c ∈ clauses, (c.key side (t.row i)).toOption.isSome = true) (by
      refine forall₄_congr fun i _ c _ => ?_
      cases c.key side (t.row i) <;> simp [Except.toOption])

instance (clauses : List Clause) (side : Side) (t : Tile) : Decidable (SortedOn clauses side t) :=
  decidable_of_iff
    (∀ i < t.rowCount - 1, keyOrder clauses side (t.row i) (t.row (i + 1)) ≠ .ok .gt)
    (forall_congr' fun _ => imp_congr_left Nat.lt_sub_iff_add_lt)

/-- The values of all halves of the side on a row of the tile, null where there is none. -/
def Tile.keyAt (t : Tile) (clauses : List Clause) (side : Side) (i : Nat) : List Scalar :=
  clauses.map fun c => (c.key side (t.row i)).toOption.getD .null

theorem sameKey_iff {clauses : List Clause} {s s' : Side} {a b : Row} :
    sameKey clauses s a s' b = true ↔
      ∀ c ∈ clauses, ∃ x y, c.key s a = .ok x ∧ c.key s' b = .ok y ∧ x.compare y = .eq := by
  rw [sameKey, List.all_eq_true]
  refine forall₂_congr fun c _ => ?_
  cases c.key s a <;> cases c.key s' b <;> simp

theorem sameKey_symm {clauses : List Clause} {s s' : Side} {a b : Row}
    (h : sameKey clauses s a s' b = true) : sameKey clauses s' b s a = true := by
  rw [sameKey_iff] at h ⊢
  intro c hc
  obtain ⟨x, y, hx, hy, hxy⟩ := h c hc
  exact ⟨y, x, hy, hx, Std.OrientedCmp.eq_symm hxy⟩

theorem sameKey_trans {clauses : List Clause} {s s' s'' : Side} {a b d : Row}
    (hab : sameKey clauses s a s' b = true) (hbd : sameKey clauses s' b s'' d = true) :
    sameKey clauses s a s'' d = true := by
  rw [sameKey_iff] at hab hbd ⊢
  intro c hc
  obtain ⟨x, y, hx, hy, hxy⟩ := hab c hc
  obtain ⟨y', z, hy', hz, hyz⟩ := hbd c hc
  -- the middle row has one value for the clause
  have heq : y = y' := Except.ok.inj (hy.symm.trans hy')
  subst heq
  exact ⟨x, z, hx, hz, Std.TransCmp.eq_trans hxy hyz⟩

theorem keyOrder_eq_ok_eq_iff {clauses : List Clause} {side : Side} {a b : Row} :
    keyOrder clauses side a b = .ok .eq ↔ sameKey clauses side a side b = true := by
  rw [keyOrder, orderBy_eq_ok_eq_iff, sameKey_iff]

section Valid

variable {clauses : List Clause} (hvalid : ∀ c ∈ clauses, c.ReadsOwnSide)

/-- A half that reads its own side has the value in any environment that it has on its own row. -/
theorem Clause.eval_half {c : Clause} (h : c.ReadsOwnSide) (side : Side) (env : Env) :
    (c.half side).eval env = c.key side (env.row side) := by
  obtain ⟨hcols, hparams⟩ := h side
  refine Expr.eval_congr (c.half side) (fun r hr => ?_) (fun i hi => ?_)
  · rw [hcols r hr]
    cases side <;> exact .refl _
  · rw [hparams] at hi
    cases hi

include hvalid in
/-- The order of a left and a right row compares the keys that the two rows have by themselves. -/
theorem pairOrder_eq_orderBy (l r : Row) :
    pairOrder clauses l r = orderBy (fun c => c.key .left l) (fun c => c.key .right r) clauses :=
  orderBy_congr (fun c hc => c.eval_half (hvalid c hc) .left ⟨l, r, []⟩)
    (fun c hc => c.eval_half (hvalid c hc) .right ⟨l, r, []⟩)

include hvalid in
theorem pairOrder_eq_ok_eq_iff (l r : Row) :
    pairOrder clauses l r = .ok .eq ↔ sameKey clauses .left l .right r = true := by
  rw [pairOrder_eq_orderBy hvalid, orderBy_eq_ok_eq_iff, sameKey_iff]

end Valid

/-! ## Both comparisons are the order of keys -/

theorem HasKeys.key_eq {clauses : List Clause} {side : Side} {t : Tile}
    (h : HasKeys clauses side t) {i : Nat} (hi : i < t.rowCount) :
    ∀ c ∈ clauses, c.key side (t.row i) = .ok ((c.key side (t.row i)).toOption.getD .null) := by
  intro c hc
  obtain ⟨v, hv⟩ := h i hi c hc
  rw [hv]
  rfl

theorem HasKeys.keyOrder_eq {clauses : List Clause} {side : Side} {t : Tile}
    (h : HasKeys clauses side t) {i k : Nat} (hi : i < t.rowCount) (hk : k < t.rowCount) :
    keyOrder clauses side (t.row i) (t.row k)
      = .ok (compareKeys (t.keyAt clauses side i) (t.keyAt clauses side k)) :=
  orderBy_eq_compareKeys (h.key_eq hi) (h.key_eq hk)

theorem HasKeys.pairOrder_eq {clauses : List Clause} {left right : Tile}
    (hvalid : ∀ c ∈ clauses, c.ReadsOwnSide) (hleft : HasKeys clauses .left left)
    (hright : HasKeys clauses .right right) {l r : Nat} (hl : l < left.rowCount)
    (hr : r < right.rowCount) :
    pairOrder clauses (left.row l) (right.row r)
      = .ok (compareKeys (left.keyAt clauses .left l) (right.keyAt clauses .right r)) := by
  rw [pairOrder_eq_orderBy hvalid]
  exact orderBy_eq_compareKeys (hleft.key_eq hl) (hright.key_eq hr)

/-- Rows with values for all halves have equal keys exactly if these compare equal. -/
theorem sameKey_iff_compareKeys {clauses : List Clause} {s s' : Side} {t t' : Tile}
    (h : HasKeys clauses s t) (h' : HasKeys clauses s' t') {i k : Nat} (hi : i < t.rowCount)
    (hk : k < t'.rowCount) :
    sameKey clauses s (t.row i) s' (t'.row k) = true ↔
      compareKeys (t.keyAt clauses s i) (t'.keyAt clauses s' k) = .eq := by
  rw [sameKey_iff, ← orderBy_eq_ok_eq_iff,
    orderBy_eq_compareKeys (h.key_eq hi) (h'.key_eq hk)]
  exact ⟨fun he => Except.ok.inj he, fun he => congrArg Except.ok he⟩

/-- In a sorted tile every row has a key that is not above the keys of later rows. -/
theorem SortedOn.keyAt_isLE {clauses : List Clause} {side : Side} {t : Tile}
    (hkeys : HasKeys clauses side t) (hsorted : SortedOn clauses side t) {i k : Nat} (hik : i ≤ k)
    (hk : k < t.rowCount) :
    (compareKeys (t.keyAt clauses side i) (t.keyAt clauses side k)).isLE := by
  induction k, hik using Nat.le_induction with
  | base => exact Std.ReflCmp.isLE_rfl
  | succ k hik ih =>
      have hstep := hsorted k hk
      rw [hkeys.keyOrder_eq (by omega) hk] at hstep
      refine Std.TransCmp.isLE_trans (ih (by omega)) ?_
      rw [Ordering.isLE_iff_ne_gt]
      intro hgt
      exact hstep (by rw [hgt])

end SortMerge

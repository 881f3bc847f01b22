import SortMerge.Proofs.Expr.Failure
import SortMerge.Proofs.Join.Key

set_option autoImplicit false

/-! # Keys see one row

Groups are found by evaluating a half of a clause on a row that stands on both sides, and matches by
evaluating it on a pair of rows. Nothing in evaluation keeps a half from looking at the other row or
at a parameter; that the two agree rests on the check of the plan, which has only looked at the
references in the halves. In a valid plan the value of a half, or the error in its place, is a
function of the row of its own side. -/

namespace SortMerge

/-- The outcome of the expression, an error included, depends on the row of one side alone. -/
def Expr.SeesOnly (side : Side) (e : Expr) : Prop :=
  ∀ env env' : Env, env.row side = env'.row side → e.eval env = e.eval env'

namespace Clause.ReadsOwnSide

variable {c : Clause} (h : c.ReadsOwnSide)
include h

theorem seesOnly (side : Side) : (c.half side).SeesOnly side := by
  intro env env' hrow
  rw [c.eval_half h, c.eval_half h, hrow]

/-- The key of a row fails at a column of its own side that the row does not have, or at an operand
    that is not boolean; there are no parameters to be missed. -/
theorem key_error_cases {side : Side} {r : Row} {err : ExprError}
    (herr : c.key side r = .error err) :
    (∃ index, (side, index) ∈ (c.half side).columns ∧ r.cell index = none ∧
        err = .columnOutOfRange side index r.width) ∨
      ∃ op got, err = .notBoolean op got := by
  obtain ⟨hcols, hparams⟩ := h side
  cases Expr.eval_justified _ herr with
  | @column s index hread hempty =>
      have hside : s = side := hcols (s, index) hread
      subst hside
      have hrow : (⟨r, r, []⟩ : Env).row s = r := by cases s <;> rfl
      rw [hrow] at hempty ⊢
      exact .inl ⟨index, hread, hempty, rfl⟩
  | param hread =>
      rw [hparams] at hread
      cases hread
  | operand => exact .inr ⟨_, _, rfl⟩

theorem eval_ne_unboundParam (side : Side) (env : Env) (index : Nat) :
    (c.half side).eval env ≠ .error (.unboundParam index) := by
  intro herr
  rw [c.eval_half h] at herr
  rcases h.key_error_cases herr with ⟨_, _, _, heq⟩ | ⟨_, _, heq⟩
  · cases heq
  · cases heq

end Clause.ReadsOwnSide

/-- In a valid plan each half of a clause sees the rows of its own side only, whatever stands on the
    other side and whatever parameters there are; it never asks for a parameter. So the key that a
    row has among the rows of its own tile is the key that it has against any row of the other one:
    both orders of rows compare the same keys. -/
theorem keys_see_own_row {p : Plan} (hvalid : p.validate = .ok ()) :
    (∀ c ∈ p.clauses, ∀ side, (c.half side).SeesOnly side ∧
        (∀ env, (c.half side).eval env = c.key side (env.row side)) ∧
        ∀ env index, (c.half side).eval env ≠ .error (.unboundParam index)) ∧
      (∀ side a b, keyOrder p.clauses side a b
        = orderBy (fun c => c.key side a) (fun c => c.key side b) p.clauses) ∧
      ∀ l r, pairOrder p.clauses l r
        = orderBy (fun c => c.key .left l) (fun c => c.key .right r) p.clauses := by
  have hreads := ((Plan.validate_eq_ok_iff p).1 hvalid).2
  refine ⟨?_, ?_, ?_⟩
  · intro c hc side
    have hc := hreads c hc
    exact ⟨hc.seesOnly side, c.eval_half hc side, hc.eval_ne_unboundParam side⟩
  · intro side a b
    rfl
  · intro l r
    exact pairOrder_eq_orderBy hreads l r

namespace Example

/-- The left key is a connective whose second operand is only looked at if the first one leaves the
    outcome open. -/
def guarded : Plan :=
  { clauses := [⟨.junction .or [.compare .lt (.column .left 0) (.literal (.int16 3)),
      .column .left 1], .column .right 0⟩] }

def shortRow : Row := ⟨0, 2, fun c => [Scalar.int16 7, .text "x"][c]?⟩

def wideRow : Row := ⟨4, 3, fun c => [Scalar.bool true, .int64 1, .null][c]?⟩

def emptyRow : Row := ⟨1, 0, fun _ => none⟩

end Example

/-- The left key of a row fails at the text in its second column, next to a row with values, next to
    a row with none, and next to itself. -/
theorem keys_see_own_row_guarded :
    Example.guarded.validate = .ok () ∧
      ∀ c ∈ Example.guarded.clauses,
        c.left.eval ⟨Example.shortRow, Example.wideRow, [.bool true]⟩
            = .error (.notBoolean (.junction .or) (.text "x")) ∧
          c.left.eval ⟨Example.shortRow, Example.emptyRow, []⟩
            = .error (.notBoolean (.junction .or) (.text "x")) ∧
          c.key .left Example.shortRow = .error (.notBoolean (.junction .or) (.text "x")) := by
  have hvalid : Example.guarded.validate = .ok () := by decide
  refine ⟨hvalid, ?_⟩
  intro c hc
  obtain ⟨hsees, hkey, -⟩ := (keys_see_own_row hvalid).1 c hc .left
  have hown : c.key .left Example.shortRow = .error (.notBoolean (.junction .or) (.text "x")) := by
    rw [Example.guarded, List.mem_singleton] at hc
    subst hc
    rfl
  have hwide := (hkey ⟨Example.shortRow, Example.wideRow, [.bool true]⟩).trans hown
  have hempty := hsees ⟨Example.shortRow, Example.wideRow, [.bool true]⟩
    ⟨Example.shortRow, Example.emptyRow, []⟩ rfl
  exact ⟨hwide, hempty.symm.trans hwide, hown⟩

end SortMerge

import Mathlib.Logic.Relation
import SortMerge.Operator
import SortMerge.Proofs.Join.Pair

set_option autoImplicit false

/-! # Rounds and calls of a join

In one round a join asks its right input and then its left one, and joins the two tiles if it gets
them. A caller pulls and takes in any order; each pull passes over rounds without rows, and the
round it stops at decides the answer and what the inputs have left.

Nothing is assumed of the inputs: failures, tiles that cannot be taken and ends may stand between
any tiles. That a feed has an end is no restriction either, since finitely many calls that return
have asked each input finitely often. -/

namespace SortMerge

/-! ## Rounds

What a round can do is said once, failures of all kinds included, and the trace of a join is read as
the sequence of its rounds. Everything about runs of a join follows from that. -/

/-- What the two inputs of a join still have to answer. -/
structure Inputs where
  right : Feed
  left : Feed

/-- What comes of asking the inputs once. -/
inductive Round where
  /-- The join has ended, or it fails in this way in every round from now on. -/
  | over (error : Option OperatorError)
  /-- The outcome of the round, and what the inputs have left to answer. -/
  | went (outcome : Except OperatorError (Option Tile)) (rest : Inputs)

/-- The trace from a pair with the given outcome on; `rest` is the trace after the pair. -/
def traceWith (s : Stats) (rest : Trace) : Except OperatorError (Option Tile) → Trace
  | .error e => .step (.failed e, s) rest
  | .ok none => rest
  | .ok (some t) => .step (.tile t, s) rest

namespace Join

/-- One round. A right tile is lost if the left input has none to go with it. -/
def round (j : Join) : Inputs → Round
  | ⟨.stop none, _⟩ => .over j.rightEnd
  | ⟨.stop (some e), _⟩ => .over (some e)
  | ⟨.step (.failed e) right, left⟩ => .went (.error e) ⟨right, left⟩
  | ⟨.step .withheld right, left⟩ => .went (.error (.withheld .right)) ⟨right, left⟩
  | ⟨.step .ended right, left⟩ =>
    match j.rightEnd with
    | some e => .went (.error e) ⟨right, left⟩
    | none => .over none
  | ⟨.step (.tile r) right, left⟩ =>
    match left with
    | .stop none => .over none
    | .stop (some e) => .went (.error e) ⟨right, left⟩
    | .step .ended _ => .over none
    | .step (.failed e) left => .went (.error e) ⟨right, left⟩
    | .step .withheld left => .went (.error (.withheld .left)) ⟨right, left⟩
    | .step (.tile l) left => .went (j.outcome l r) ⟨right, left⟩

variable {j : Join} {i i' : Inputs} {out : Except OperatorError (Option Tile)}

/-- A round that is not the last one uses up an answer of the right input. -/
theorem length_right_of_round (h : j.round i = .went out i') :
    i.right.length = i'.right.length + 1 := by
  fun_cases Join.round j i with
  | case1 | case2 | case7 | case9 => cases h
  | case6 right left hend =>
      rw [round, hend] at h
      cases h
  | case5 right left e hend =>
      rw [round, hend] at h
      cases h
      rfl
  | _ =>
      cases h
      rfl

/-- The trace of a join is answered by its first round, and passes over a round without rows. -/
theorem trace_eq_round (j : Join) (i : Inputs) (s : Stats) :
    ∃ s', j.trace i.right i.left s =
      match j.round i with
      | .over e => .stop (e, s')
      | .went out rest => traceWith s' (j.trace rest.right rest.left s') out := by
  fun_cases Join.round j i with
  | case5 right left e hend | case6 right left hend =>
      refine ⟨s, ?_⟩
      simp only [trace, hend, traceWith]
  | case12 r right l left =>
      simp only [trace, ← j.joinPair_snd l r s]
      obtain ⟨s', e | _ | t⟩ := j.joinPair l r s
      · exact ⟨s', rfl⟩
      · exact ⟨s'.addEmpty, rfl⟩
      · exact ⟨s'.addTile, rfl⟩
  | _ => exact ⟨s, rfl⟩

end Join

/-! ## Sequences of calls -/

/-- What a caller can do with an operator. -/
inductive Call where
  | pull | take
  deriving DecidableEq, Repr

namespace Operator

/-- The operator after some calls. -/
def after (o : Operator) : List Call → Operator
  | [] => o
  | .pull :: calls => o.pull.2.after calls
  | .take :: calls => o.take.2.after calls

/-- The answers to the pulls among some calls. -/
def answers (o : Operator) : List Call → List (Except OperatorError Bool)
  | [] => []
  | .pull :: calls => o.pull.1 :: o.pull.2.answers calls
  | .take :: calls => o.take.2.answers calls

theorem answers_append (o : Operator) (first rest : List Call) :
    o.answers (first ++ rest) = o.answers first ++ (o.after first).answers rest := by
  induction first generalizing o with
  | nil => rfl
  | cons call first ih =>
      cases call with
      | pull => simp only [List.cons_append, answers, after, ih]
      | take => simp only [List.cons_append, answers, after, ih]

section Invariant

variable {I : Operator → Prop} {P : Except OperatorError Bool → Prop}
  {R : Except OperatorError Bool → Except OperatorError Bool → Prop} {o : Operator}

/-- What holds of the answer to every pull from an invariant state holds of all answers. -/
theorem forall_answers (htake : ∀ o, I o → I o.take.2) (hpull : ∀ o, I o → P o.pull.1 ∧ I o.pull.2)
    (ho : I o) (calls : List Call) : ∀ a ∈ o.answers calls, P a := by
  induction calls generalizing o with
  | nil => simp [answers]
  | cons call calls ih =>
      cases call with
      | pull =>
          obtain ⟨hP, hI⟩ := hpull o ho
          rw [answers, List.forall_mem_cons]
          exact ⟨hP, ih hI⟩
      | take => exact ih (htake o ho)

/-- What holds between the answer to a pull from an invariant state and all later ones holds between
    all earlier and later answers. -/
theorem answers_pairwise (htake : ∀ o, I o → I o.take.2) (hpull : ∀ o, I o → I o.pull.2)
    (hlater : ∀ o, I o → ∀ calls, ∀ b ∈ o.pull.2.answers calls, R o.pull.1 b) (ho : I o)
    (calls : List Call) : (o.answers calls).Pairwise R := by
  induction calls generalizing o with
  | nil => exact List.Pairwise.nil
  | cons call calls ih =>
      cases call with
      | pull => exact List.Pairwise.cons (hlater o ho calls) (ih (hpull o ho))
      | take => exact ih (htake o ho)

end Invariant

/-! ## Joins in use -/

/-- The operator joins two inputs that have the given answers left. -/
def IsJoinOf (o : Operator) (j : Join) (i : Inputs) : Prop :=
  ∃ s, o.ahead = j.trace i.right i.left s

theorem isJoinOf_ofSource (j : Join) (left right : Source) :
    (ofSource (.join j left right)).IsJoinOf j ⟨right.feed, left.feed⟩ :=
  ⟨{}, rfl⟩

namespace IsJoinOf

variable {o : Operator} {j : Join} {i : Inputs}

theorem take (h : o.IsJoinOf j i) : o.take.2.IsJoinOf j i := h

/-- What the operator has ahead is decided by the next round. -/
theorem ahead_eq (h : o.IsJoinOf j i) :
    ∃ s, o.ahead =
      match j.round i with
      | .over e => .stop (e, s)
      | .went out rest => traceWith s (j.trace rest.right rest.left s) out := by
  obtain ⟨s, hs⟩ := h
  rw [hs]
  exact j.trace_eq_round i s

/-- Once the join is over, pulls change nothing any more. -/
theorem pull_over (h : o.IsJoinOf j i) {e : Option OperatorError} (hround : j.round i = .over e) :
    o.pull.1 = e.elim (.ok false) .error ∧ o.pull.2.IsJoinOf j i := by
  obtain ⟨s, hs⟩ := h.ahead_eq
  rw [hround] at hs
  have hahead : o.pull.2.ahead = o.ahead := by
    rw [pull]
    cases e <;> simp only [hs]
  refine ⟨?_, ?_⟩
  · rw [pull]
    cases e <;> simp only [hs] <;> rfl
  · rw [IsJoinOf, hahead]
    exact h

theorem pull_error (h : o.IsJoinOf j i) {e : OperatorError} {rest : Inputs}
    (hround : j.round i = .went (.error e) rest) :
    o.pull.1 = .error e ∧ o.pull.2.IsJoinOf j rest := by
  obtain ⟨s, hs⟩ := h.ahead_eq
  rw [hround] at hs
  simp only [traceWith] at hs
  rw [pull, hs]
  exact ⟨rfl, s, rfl⟩

theorem pull_tile (h : o.IsJoinOf j i) {t : Tile} {rest : Inputs}
    (hround : j.round i = .went (.ok (some t)) rest) :
    o.pull.1 = .ok true ∧ o.pull.2.IsJoinOf j rest := by
  obtain ⟨s, hs⟩ := h.ahead_eq
  rw [hround] at hs
  simp only [traceWith] at hs
  rw [pull, hs]
  exact ⟨rfl, s, rfl⟩

/-- A round without rows is part of a later pull, so nothing has to be pulled to get past it. -/
theorem of_empty (h : o.IsJoinOf j i) {rest : Inputs} (hround : j.round i = .went (.ok none) rest) :
    o.IsJoinOf j rest := by
  obtain ⟨s, hs⟩ := h.ahead_eq
  rw [hround] at hs
  exact ⟨s, hs⟩

end IsJoinOf

end Operator

/-! ## Reachable rounds -/

namespace Join

/-- A round leads from one state of the inputs to the next. -/
def Next (j : Join) (i i' : Inputs) : Prop := ∃ out, j.round i = .went out i'

/-- Any number of rounds leads from one state of the inputs to the other. -/
def Leads (j : Join) : Inputs → Inputs → Prop := Relation.ReflTransGen j.Next

end Join

namespace Operator

variable {o : Operator} {j : Join} {i : Inputs}

/-- How a pull of a join is answered: by the first round that has rows, fails, or is the last. -/
theorem IsJoinOf.pull_cases (h : o.IsJoinOf j i) :
    ∃ i', j.Leads i i' ∧
      ((∃ e, j.round i' = .over e ∧ o.pull.1 = e.elim (.ok false) .error ∧
          o.pull.2.IsJoinOf j i') ∨
        (∃ e rest, j.round i' = .went (.error e) rest ∧ o.pull.1 = .error e ∧
          o.pull.2.IsJoinOf j rest) ∨
        ∃ t rest, j.round i' = .went (.ok (some t)) rest ∧ o.pull.1 = .ok true ∧
          o.pull.2.IsJoinOf j rest) := by
  induction hlength : i.right.length using Nat.strongRecOn generalizing i with
  | ind n ih =>
      match hround : j.round i with
      | .over e => exact ⟨i, .refl, .inl ⟨e, hround, h.pull_over hround⟩⟩
      | .went (.error e) rest =>
          exact ⟨i, .refl, .inr (.inl ⟨e, rest, hround, h.pull_error hround⟩)⟩
      | .went (.ok (some t)) rest =>
          exact ⟨i, .refl, .inr (.inr ⟨t, rest, hround, h.pull_tile hround⟩)⟩
      | .went (.ok none) rest =>
          have hlt := Join.length_right_of_round hround
          obtain ⟨i', hleads, hcases⟩ := ih _ (by omega) (h.of_empty hround) rfl
          exact ⟨i', .head ⟨_, hround⟩ hleads, hcases⟩

/-- Some pulls take a join to any state of its inputs that rounds lead to. -/
theorem IsJoinOf.exists_after (h : o.IsJoinOf j i) {i' : Inputs} (hleads : j.Leads i i') :
    ∃ calls, (o.after calls).IsJoinOf j i' := by
  induction hleads using Relation.ReflTransGen.head_induction_on generalizing o with
  | refl => exact ⟨[], h⟩
  | head hnext _ ih =>
      obtain ⟨out, hround⟩ := hnext
      match out with
      | .ok none => exact ih (h.of_empty hround)
      | .error e =>
          obtain ⟨calls, hcalls⟩ := ih (h.pull_error hround).2
          exact ⟨.pull :: calls, hcalls⟩
      | .ok (some t) =>
          obtain ⟨calls, hcalls⟩ := ih (h.pull_tile hround).2
          exact ⟨.pull :: calls, hcalls⟩

end Operator

end SortMerge

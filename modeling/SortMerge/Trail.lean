set_option autoImplicit false

/-! # Trails

A trail is a finite sequence together with what stands at its end. It describes an activity that
yields one thing after another and then stops for a reason: a walk over groups that runs out of rows
or fails, an operator that has no more to give. -/

namespace SortMerge

/-- Some steps, then an end. -/
inductive Trail (ε α : Type) where
  | stop (ending : ε)
  | step (head : α) (rest : Trail ε α)
  deriving Inhabited

namespace Trail

variable {ε α : Type}

def toList : Trail ε α → List α
  | .stop _ => []
  | .step a rest => a :: rest.toList

def ending : Trail ε α → ε
  | .stop e => e
  | .step _ rest => rest.ending

def length : Trail ε α → Nat
  | .stop _ => 0
  | .step _ rest => rest.length + 1

/-- The trail with the given steps and end. -/
def ofList (steps : List α) (e : ε) : Trail ε α := steps.foldr .step (.stop e)

/-- Applies a function to every step and another one to the end. -/
def map {ε' α' : Type} (f : α → α') (g : ε → ε') : Trail ε α → Trail ε' α'
  | .stop e => .stop (g e)
  | .step a rest => .step (f a) (rest.map f g)

@[simp] theorem toList_ofList (steps : List α) (e : ε) : (ofList steps e).toList = steps := by
  induction steps with
  | nil => rfl
  | cons a rest ih => simpa [ofList, toList] using ih

@[simp] theorem toList_map {ε' α' : Type} (f : α → α') (g : ε → ε') (t : Trail ε α) :
    (t.map f g).toList = t.toList.map f := by
  induction t with
  | stop e => rfl
  | step a rest ih => simp [map, toList, ih]

end Trail

end SortMerge

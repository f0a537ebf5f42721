import VideoSchedule.Window

/-!
References between pictures. A picture is named by another in up to three roles, and every role it
takes is one hold on it at both levels.
-/

namespace VideoSchedule

/-- Roles in which one picture names another. -/
structure Roles where
  reference : Bool := false
  dpb : Bool := false
  previous : Bool := false
deriving DecidableEq, Repr, Inhabited

def Roles.count (roles : Roles) : Nat :=
  roles.reference.toNat + roles.dpb.toNat + roles.previous.toNat

structure ReferenceSet where
  past : List Nat
  future : List Nat
  dpb : List Nat
deriving DecidableEq, Repr, Inhabited

namespace Prediction

variable {ι : Type}

def listsFull (picture : Picture ι) : Bool :=
  decide (maxListReferences ≤ picture.past.length) ||
    decide (maxListReferences ≤ picture.future.length)

def enterList (target : Handle) (targetOrder : Nat) (picture : Picture ι) : Picture ι :=
  if targetOrder < picture.displayOrder then { picture with past := picture.past ++ [target] }
  else { picture with future := picture.future ++ [target] }

def addToLists (handle target : Handle) (targetOrder : Nat) : Action (Window ι) Unit := do
  let picture ← Window.fetch handle
  if handle = target ∨ listsFull picture = true then
    Action.refuse (.referenceRefused targetOrder picture.displayOrder) .invalidReferenceState
  else Window.alter handle (enterList target targetOrder)

def addToDpb (handle target : Handle) : Action (Window ι) Unit := do
  let picture ← Window.fetch handle
  if maxDpbSize ≤ picture.dpb.length then
    Action.refuse (.dpbFull picture.displayOrder) .invalidReferenceState
  else Window.alter handle fun picture => { picture with dpb := picture.dpb ++ [target] }

def setPrevious (handle target : Handle) : Action (Window ι) Unit := do
  let picture ← Window.fetch handle
  if picture.previous.isSome then Action.fail .invalidReferenceState
  else Window.alter handle ({ · with previous := some target })

/-- Names `target` in the given roles of `handle`, one role after the other, and holds it once for
each. -/
def addReference (handle target : Handle) (roles : Roles) : Action (Window ι) Unit := do
  let named ← Window.fetch target
  let _ ← Window.fetch handle
  Action.when roles.reference (addToLists handle target named.displayOrder)
  Action.when roles.dpb (addToDpb handle target)
  Action.when roles.previous (setPrevious handle target)
  Window.alter target (·.retain roles.count)

def displayOrders (window : Window ι) : List Handle → Except EncodeError (List Nat)
  | [] => .ok []
  | handle :: rest =>
    match window.find? handle with
    | none => .error .invalidReferenceState
    | some picture => (displayOrders window rest).map (picture.displayOrder :: ·)

def references (handle : Handle) : Action (Window ι) ReferenceSet := do
  let window ← Action.get
  let picture ← Window.fetch handle
  let past ← Action.ofExcept (displayOrders window picture.past)
  let future ← Action.ofExcept (displayOrders window picture.future)
  let dpb ← Action.ofExcept (displayOrders window picture.dpb)
  return { past, future, dpb }

end Prediction

end VideoSchedule

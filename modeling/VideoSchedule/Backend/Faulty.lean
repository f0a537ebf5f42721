import VideoSchedule.Backend

/-!
A backend that fails by plan: at chosen allocations, and at chosen pictures when they are issued,
waited for or collected.
-/

namespace VideoSchedule

inductive Stage where
  | alloc
  | issue
  | sync
  | output
deriving DecidableEq, Repr, Inhabited

/-- A failure at the allocation with this number, or of the picture with this display order. -/
structure Fault where
  stage : Stage
  place : Nat
  error : BackendError
deriving DecidableEq, Repr, Inhabited

def Fault.find? (plan : List Fault) (stage : Stage) (place : Nat) : Option BackendError :=
  (plan.find? fun fault => fault.stage == stage && fault.place == place).map Fault.error

structure Faulty (B : Backend) where
  inner : B.State
  plan : List Fault := []
  allocations : Nat := 0
  /-- Claimed in place of what the backend can do. -/
  claimed : Option Capabilities := none

structure FaultyPromise (B : Backend) where
  inner : B.Promise
  displayOrder : Nat
  fault : Option BackendError

abbrev Backend.faulty (B : Backend) : Backend where
  State := Faulty B
  Image := B.Image
  Promise := FaultyPromise B
  Coded := Nat × B.Coded
  capabilities state := state.claimed.getD (B.capabilities state.inner)
  alloc frame state :=
    let counted := { state with allocations := state.allocations + 1 }
    match Fault.find? state.plan .alloc state.allocations with
    | some error => (.error error, counted)
    | none =>
      let (result, inner) := B.alloc frame state.inner
      (result, { counted with inner })
  issue request state :=
    let displayOrder := request.picture.displayOrder
    match Fault.find? state.plan .issue displayOrder with
    | some error => (.error error, state)
    | none =>
      let (result, inner) := B.issue request state.inner
      let fault := Fault.find? state.plan .sync displayOrder
      (result.map fun promise => { inner := promise, displayOrder, fault }, { state with inner })
  isReady state promise := B.isReady state.inner promise.inner
  sync promise state :=
    let (result, inner) := B.sync promise.inner state.inner
    (match promise.fault with
      | some error => .error error
      | none => result.map fun coded => (promise.displayOrder, coded), { state with inner })
  output image coded state :=
    match Fault.find? state.plan .output coded.1 with
    | some error => (.error error, state)
    | none =>
      let (result, inner) := B.output image coded.2 state.inner
      (result, { state with inner })
  free image state := { state with inner := B.free image state.inner }

end VideoSchedule

import VideoSchedule.Action
import VideoSchedule.Config

/-!
The output queue: promises of coded pictures, handed out in the order in which they were given.
-/

namespace VideoSchedule

structure OutputQueue (π : Type) where
  /-- A blocking queue waits at every request. -/
  mode : BlockingMode
  capacity : Nat
  promises : List π := []
deriving Repr

namespace OutputQueue

variable {π β : Type}

def size (queue : OutputQueue π) : Nat := queue.promises.length

def isEmpty (queue : OutputQueue π) : Bool := queue.promises.isEmpty

def isFull (queue : OutputQueue π) : Bool := decide (queue.capacity ≤ queue.size)

def frontIsReady (ready : π → Bool) (queue : OutputQueue π) : Bool :=
  match queue.promises with
  | front :: _ => ready front
  | [] => false

def add (promise : π) : Action (OutputQueue π) Unit := do
  let queue ← Action.get
  if queue.isFull then Action.refuse (.queueOverflow queue.size) .invalidInternalState
  else Action.modify ({ · with promises := queue.promises ++ [promise] })

def take? (mode : BlockingMode) (ready : π → Bool) (queue : OutputQueue π) :
    Option (π × OutputQueue π) :=
  match queue.promises with
  | [] => none
  | front :: rest =>
    if queue.mode = .blocking ∨ mode = .blocking ∨ ready front = true then
      some (front, { queue with promises := rest })
    else none

def poll (mode : BlockingMode) (ready : π → Bool) (sync : π → β) (queue : OutputQueue π) :
    Option β × OutputQueue π :=
  match queue.take? mode ready with
  | some (front, rest) => (some (sync front), rest)
  | none => (none, queue)

end OutputQueue

end VideoSchedule

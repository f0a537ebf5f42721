import VideoSchedule.Backend

/-!
A backend that writes down every call it gets, together with the answer.
-/

namespace VideoSchedule

inductive BackendCall (ι : Type) where
  | alloc (frame : Frame) (result : Except BackendError ι)
  | issue (request : Request ι) (failure : Option BackendError)
  | sync (picture : PictureInfo) (failure : Option BackendError)
  | output (image : ι) (result : Except BackendError (List UInt8))
  | free (image : ι)

structure Recorded (B : Backend) where
  inner : B.State
  /-- Latest first. -/
  calls : List (BackendCall B.Image) := []

namespace Recorded

variable {B : Backend}

def failure? {α : Type} : Except BackendError α → Option BackendError
  | .ok _ => none
  | .error cause => some cause

def record (call : BackendCall B.Image) (inner : B.State) (state : Recorded B) : Recorded B where
  inner := inner
  calls := call :: state.calls

/-- The requests to issue a picture, refused ones too, in the order in which they came. -/
def requests (state : Recorded B) : List (Request B.Image) :=
  state.calls.reverse.filterMap fun
    | .issue request _ => some request
    | _ => none

end Recorded

abbrev Backend.recorded (B : Backend) : Backend where
  State := Recorded B
  Image := B.Image
  Promise := PictureInfo × B.Promise
  Coded := B.Coded
  capabilities state := B.capabilities state.inner
  alloc frame state :=
    let (result, inner) := B.alloc frame state.inner
    (result, state.record (.alloc frame result) inner)
  issue request state :=
    let (result, inner) := B.issue request state.inner
    (result.map fun promise => (request.picture, promise),
      state.record (.issue request (Recorded.failure? result)) inner)
  isReady state promise := B.isReady state.inner promise.2
  sync promise state :=
    let (result, inner) := B.sync promise.2 state.inner
    (result, state.record (.sync promise.1 (Recorded.failure? result)) inner)
  output image coded state :=
    let (result, inner) := B.output image coded state.inner
    (result, state.record (.output image result) inner)
  free image state := state.record (.free image) (B.free image state.inner)

end VideoSchedule

import VideoSchedule.Failure

/-!
What a client asks for, what a backend offers, and the limits that hold for both.
-/

namespace VideoSchedule

def maxDpbSize : Nat := 16

def maxListReferences : Nat := 2

def maxReorderDelay : Nat := 16

def maxAsyncDepth : Nat := 64

/-- Whether a request for output waits for the picture in front. -/
inductive BlockingMode where
  | blocking
  | nonBlocking
deriving DecidableEq, Repr, Inhabited

structure Config where
  gopSize : Nat := 120
  /-- Most consecutive B-pictures between two top layer pictures. -/
  maxBFrames : Nat := 2
  /-- Key pictures that are not IDR between two IDR pictures. -/
  idrInterval : Nat := 0
  bDepth : Nat := 1
  /-- Most pictures issued to the backend and not output yet. -/
  asyncDepth : Nat := 2
  /-- No B-picture may refer across a GOP boundary. -/
  closedGop : Bool := false
deriving DecidableEq, Repr, Inhabited

namespace Config

def validate (config : Config) : Except EncodeError Unit :=
  if config.bDepth < 1 then
    .error (.invalidConfig "b_depth must be at least 1")
  else if config.asyncDepth < 1 ∨ maxAsyncDepth < config.asyncDepth then
    .error (.invalidConfig
      ("async_depth must be within 1..=" ++ toString maxAsyncDepth ++ ", got " ++
        toString config.asyncDepth))
  else if maxReorderDelay < config.maxBFrames then
    .error (.invalidConfig
      ("max_b_frames must not exceed " ++ toString maxReorderDelay ++ ", got " ++
        toString config.maxBFrames))
  else .ok ()

structure Valid (config : Config) : Prop where
  bDepth_pos : 1 ≤ config.bDepth
  asyncDepth_pos : 1 ≤ config.asyncDepth
  asyncDepth_le : config.asyncDepth ≤ maxAsyncDepth
  maxBFrames_le : config.maxBFrames ≤ maxReorderDelay

theorem validate_eq_ok_iff (config : Config) : config.validate = .ok () ↔ config.Valid := by
  unfold validate
  constructor
  · intro accepted
    split at accepted
    · cases accepted
    split at accepted
    · cases accepted
    split at accepted
    · cases accepted
    constructor <;> omega
  · rintro ⟨depth, lower, upper, frames⟩
    rw [if_neg (by omega), if_neg (by omega), if_neg (by omega)]

end Config

structure Capabilities where
  intraOnly : Bool := false
  bPictures : Bool := true
  bPictureReferences : Bool := true
  /-- Key pictures that are not IDR can be encoded. -/
  intraKeyPictures : Bool := true
  maxPastRefs : Nat := 1
  maxFutureRefs : Nat := 1
  pastOnly : Bool := false
  /-- Top layer pictures other than key pictures are coded as generalized B-pictures. -/
  generalizedB : Bool := false
  /-- Issued pictures complete later, several may be in flight. -/
  pipelined : Bool := false
  /-- Decode timestamps equal presentation timestamps. -/
  undelayed : Bool := false
  roi : Bool := false
deriving DecidableEq, Repr, Inhabited

end VideoSchedule

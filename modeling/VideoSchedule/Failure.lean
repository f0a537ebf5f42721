/-!
What can go wrong: failures of a backend, errors of the encoder, and which of them end a session.
-/

namespace VideoSchedule

inductive BackendError where
  | unsupported
  | outOfResources
  | fatal (reason : String)
  | other (reason : String)
deriving DecidableEq, Repr, Inhabited

namespace BackendError

def message : BackendError → String
  | unsupported => "unsupported"
  | outOfResources => "not enough resources to proceed with the operation now"
  | fatal reason => "fatal backend error: " ++ reason
  | other reason => reason

def isFatal : BackendError → Bool
  | fatal _ => true
  | _ => false

end BackendError

inductive EncodeError where
  | unsupported
  | invalidConfig (reason : String)
  | allocationFailure
  | invalidReferenceState
  | invalidInternalState
  | issueFailure (displayOrder : Nat) (cause : BackendError)
  | outputFailure (displayOrder : Nat) (cause : BackendError)
  | endOfStreamSignalled
  | sessionFailed
deriving DecidableEq, Repr, Inhabited

namespace EncodeError

def message : EncodeError → String
  | unsupported => "unsupported"
  | invalidConfig reason => "invalid encoder configuration: " ++ reason
  | allocationFailure => "failed to allocate a picture record"
  | invalidReferenceState => "inconsistent reference or DPB bookkeeping. This is likely a bug."
  | invalidInternalState => "invalid internal state. This is likely a bug."
  | issueFailure displayOrder cause =>
      "failed to issue picture " ++ toString displayOrder ++ ": " ++ cause.message
  | outputFailure displayOrder cause =>
      "failed to output picture " ++ toString displayOrder ++ ": " ++ cause.message
  | endOfStreamSignalled => "frame submitted after end of stream was signalled"
  | sessionFailed => "the encode session failed earlier and cannot continue"

/-- The session cannot continue after a fatal error. A failure of one picture is fatal only if the
backend said so. -/
def isFatal : EncodeError → Bool
  | issueFailure _ cause => cause.isFatal
  | outputFailure _ cause => cause.isFatal
  | invalidConfig _ => false
  | endOfStreamSignalled => false
  | _ => true

end EncodeError

end VideoSchedule

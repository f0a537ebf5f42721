import VideoSchedule.Failure

/-!
Notices: what the encoder reports to its operator beside the result of a call. Each cause is a
constructor, the wording is `Notice.text`.
-/

namespace VideoSchedule

inductive Severity where
  | warning
  | error
deriving DecidableEq, Repr, Inhabited

/-- The two reasons for which a picture is kept by others: `direct` by pictures that are not
complete yet, `indirect` through complete pictures that are themselves still referenced. -/
inductive HoldLevel where
  | direct
  | indirect
deriving DecidableEq, Repr, Inhabited

def HoldLevel.name : HoldLevel → String
  | direct => "Direct"
  | indirect => "Indirect"

inductive Notice where
  | noReferenceSupport
  | referenceRefused (target picture : Nat)
  | dpbFull (picture : Nat)
  | nothingToPredictFrom
  | noPicturePrecedes (picture : Nat)
  | noPreviousPicture (picture : Nat)
  | stillInUse (picture : Nat)
  | countUnderflow (picture : Nat) (level : HoldLevel)
  | droppedUnencoded (picture : Nat)
  | decodeTimeClamped (wanted used : Int)
  | queueOverflow (pending : Nat)
  | cropIgnored
  | regionsIgnored
  | allocationFailed (picture : Nat) (cause : BackendError)
  | issueFailed (picture : Nat) (cause : BackendError)
  | outputFailed (cause : EncodeError)
  | drainedNothing
  | sessionEnded (cause : EncodeError)
deriving DecidableEq, Repr, Inhabited

namespace Notice

def severity : Notice → Severity
  | droppedUnencoded _ | decodeTimeClamped _ _ | cropIgnored | regionsIgnored => .warning
  | _ => .error

def text : Notice → String
  | noReferenceSupport => "backend does not support any reference pictures"
  | referenceRefused target picture =>
      "cannot add picture " ++ toString target ++ " as reference of " ++ toString picture
  | dpbFull picture => "DPB of picture " ++ toString picture ++ " is full"
  | nothingToPredictFrom => "no issued picture to predict from"
  | noPicturePrecedes picture => "no picture to predict picture " ++ toString picture ++ " from"
  | noPreviousPicture picture =>
      "picture " ++ toString picture ++ " has no previous picture and is not IDR"
  | stillInUse picture =>
      "picture " ++ toString picture ++ " is still in use and cannot be retired"
  | countUnderflow picture level =>
      "refcount underflow on picture " ++ toString picture ++ " at level " ++ level.name
  | droppedUnencoded picture =>
      "dropping picture " ++ toString picture ++ " that was never encoded"
  | decodeTimeClamped wanted used =>
      "decode timestamp " ++ toString wanted ++ " went backwards, clamping to " ++ toString used
  | queueOverflow pending =>
      "output queue overflow, " ++ toString pending ++ " promises pending"
  | cropIgnored => "cropping information on input frames ignored due to lack of support"
  | regionsIgnored =>
      "regions of interest on input frames ignored, not supported by backend"
  | allocationFailed picture cause =>
      "failed to allocate picture " ++ toString picture ++ ": " ++ cause.message
  | issueFailed picture cause =>
      "failed to issue picture " ++ toString picture ++ ": " ++ cause.message
  | outputFailed cause => "output failed: " ++ cause.message
  | drainedNothing => "failed to drain encoder, no picture was returned"
  | sessionEnded cause => "encode session failed: " ++ cause.message

end Notice

end VideoSchedule

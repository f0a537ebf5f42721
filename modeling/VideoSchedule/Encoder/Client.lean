import VideoSchedule.Encoder.Step

/-!
The calls of a client. Draining and asking for packets repeat steps; the number of steps is bounded
by the work that is left, see `Encoder.stepLimit`.
-/

namespace VideoSchedule

inductive Received where
  | packet (picture : CodedPicture)
  /-- There is no packet now: more frames have to come, or the backend has to get further. -/
  | wouldBlock
  | endOfStream
deriving DecidableEq, Repr, Inhabited

namespace Encoder

variable {B : Backend}

/-- A frame is taken in, issued and output; a picture not issued yet is issued and output; a picture
in flight is output. Besides, the end of the stream is signalled once and found once. -/
def stepLimit (encoder : Encoder B) : Nat :=
  3 * encoder.waiting.length + 2 * encoder.unissued + encoder.inFlight + 3

def encode (frame : Frame) : Action (Encoder B) Unit := do
  let encoder ← Action.get
  if encoder.failed then Action.fail .sessionFailed
  else if encoder.draining then Action.fail .endOfStreamSignalled
  else Action.modify ({ · with waiting := encoder.waiting ++ [frame] })

/-- Steps until there is a packet or no step can get further; nothing if that takes more than
`limit` steps. -/
def stepsWithin (mode : BlockingMode) : Nat → Action (Encoder B) (Option Received)
  | 0 => return none
  | limit + 1 => do
    match ← step mode with
    | .packet picture => return some (.packet picture)
    | .endOfStream => return some .endOfStream
    | .busy => return some .wouldBlock
    | .needInput =>
      if (← Action.get).canProgress then stepsWithin mode limit else return some .wouldBlock
    | .empty =>
      let encoder ← Action.get
      if encoder.canProgress || encoder.scheduler.endOfStream then stepsWithin mode limit
      else return some .wouldBlock

def nextPacket (mode : BlockingMode) : Action (Encoder B) Received := do
  let encoder ← Action.get
  match encoder.coded with
  | picture :: rest =>
    Action.modify ({ · with coded := rest })
    return .packet picture
  | [] =>
    let found ← stepsWithin mode encoder.stepLimit
    Action.require found .invalidInternalState

def receive : Action (Encoder B) Received := do nextPacket (← Action.get).mode

def poll : Action (Encoder B) (Option CodedPicture) := do
  match ← nextPacket .nonBlocking with
  | .packet picture => return some picture
  | .wouldBlock | .endOfStream => return none

/-- Steps until the stream has ended and queues the packets. Gives the first failure of a single
picture, or nothing if that takes more than `limit` steps. -/
def drainWithin (first : Option EncodeError) :
    Nat → Action (Encoder B) (Option (Option EncodeError))
  | 0 => return none
  | limit + 1 => do
    match ← Action.attempt (step .blocking) with
    | .error cause =>
      if cause.isFatal then Action.fail cause
      else drainWithin (first.or (some cause)) limit
    | .ok (.packet picture) =>
      Action.modify fun encoder => { encoder with coded := encoder.coded ++ [picture] }
      drainWithin first limit
    | .ok .endOfStream => return some first
    | .ok .empty | .ok .busy => drainWithin first limit
    | .ok .needInput =>
      if (← Action.get).canProgress then drainWithin first limit
      else Action.refuse .drainedNothing .invalidInternalState

/-- Ends the stream and encodes everything that is left. Failures of single pictures are reported
after all of them went through the backend. -/
def drain : Action (Encoder B) Unit := do
  Action.modify ({ · with draining := true })
  match ← drainWithin none (← Action.get).stepLimit with
  | none => Action.fail .invalidInternalState
  | some none => return ()
  | some (some cause) => Action.fail cause

def awaitAll : List (Handle × B.Promise) → Action (Encoder B) Unit
  | [] => return ()
  | (handle, promise) :: rest => do
    let _ ← onBackend (B.sync promise)
    Action.modify fun encoder =>
      { encoder with
        queue := { encoder.queue with promises := rest }
        window := encoder.window.adjust handle ({ · with complete := true }) }
    awaitAll rest

def release : Action (Encoder B) Unit := do
  awaitAll (← Action.get).queue.promises
  freeAll (← onWindow Retirement.clearAll)
  Action.modify ({ · with waiting := [] })

/-- Ends the stream and frees every picture. Packets that came of it can still be taken. -/
def close : Action (Encoder B) Unit := do
  let encoder ← Action.get
  let result ←
    if encoder.failed || (encoder.scheduler.endOfStream && encoder.window.isEmpty) then pure (.ok ())
    else Action.attempt drain
  release
  Action.ofExcept result

/-! Calls as data. -/

inductive Call where
  | encode (frame : Frame)
  | poll
  | receive
  | drain
  | close
deriving DecidableEq, Repr, Inhabited

inductive Answer where
  | done
  | packet (picture : CodedPicture)
  | noPacket
  | wouldBlock
  | endOfStream
deriving DecidableEq, Repr, Inhabited

def perform : Call → Action (Encoder B) Answer
  | .encode frame => do encode frame; return .done
  | .poll => do
    match ← poll with
    | some picture => return .packet picture
    | none => return .noPacket
  | .receive => do
    match ← receive with
    | .packet picture => return .packet picture
    | .wouldBlock => return .wouldBlock
    | .endOfStream => return .endOfStream
  | .drain => do drain; return .done
  | .close => do close; return .done

/-! Whole streams. -/

def packetsWithin (mode : BlockingMode) :
    Nat → Action (Encoder B) (List CodedPicture × Except EncodeError Received)
  | 0 => return ([], .error .invalidInternalState)
  | limit + 1 => do
    match ← Action.attempt (nextPacket mode) with
    | .ok (.packet picture) =>
      let (pictures, ending) ← packetsWithin mode limit
      return (picture :: pictures, ending)
    | ending => return ([], ending)

def packets (mode : BlockingMode) :
    Action (Encoder B) (List CodedPicture × Except EncodeError Received) := do
  let encoder ← Action.get
  packetsWithin mode (encoder.coded.length + encoder.stepLimit)

structure StreamResult where
  packets : List CodedPicture
  ending : Except EncodeError Unit
  left : List Frame

def takeThen (left : List Frame) (next : Action (Encoder B) StreamResult) :
    Action (Encoder B) StreamResult := do
  let (pictures, ending) ← packets .nonBlocking
  match ending with
  | .error cause => return { packets := pictures, ending := .error cause, left }
  | .ok _ =>
    let result ← next
    return { result with packets := pictures ++ result.packets }

def encodeStream : List Frame → Action (Encoder B) StreamResult
  | [] => do
    match ← Action.attempt drain with
    | .error cause => return { packets := [], ending := .error cause, left := [] }
    | .ok _ => takeThen [] (return { packets := [], ending := .ok (), left := [] })
  | frame :: rest => do
    match ← Action.attempt (encode frame) with
    | .error cause => return { packets := [], ending := .error cause, left := rest }
    | .ok _ => takeThen rest (encodeStream rest)

end Encoder

end VideoSchedule

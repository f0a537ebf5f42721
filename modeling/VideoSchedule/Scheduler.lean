import VideoSchedule.Gop
import VideoSchedule.Prediction.Anchor
import VideoSchedule.Prediction.Hierarchy

/-!
The scheduler decides which picture is encoded next. B-pictures follow the anchor displayed after
them, so frames wait until the anchor that closes their group is known; the group is then laid out
and handed out in the order of encoding.
-/

namespace VideoSchedule

inductive SchedulerState where
  | idle
  /-- Frames are held back until the timestamps can start. -/
  | accumulating
  | scheduling
  | draining
deriving DecidableEq, Repr, Inhabited

def SchedulerState.name : SchedulerState → String
  | idle => "Idle"
  | accumulating => "Accumulating"
  | scheduling => "Scheduling"
  | draining => "Draining"

inductive Pick where
  | picture (handle : Handle)
  | needMoreInput
  /-- Every picture was picked and some are still in flight. -/
  | pending
  | endOfStream
deriving DecidableEq, Repr, Inhabited

structure Scheduler where
  gop : Gop
  past : PastPictures
  inputOrder : Nat := 0
  /-- Encode order of the next picture to leave the pipeline. -/
  encodeOrder : Nat := 0
  outputOrder : Option Nat := none
  endOfStream : Bool := false
deriving DecidableEq, Repr, Inhabited

namespace Scheduler

variable {ι : Type}

def ofGop (gop : Gop) : Scheduler where
  gop := gop
  past := { multiReference := gop.multiReference }

def nextInput (scheduler : Scheduler) : Nat × Scheduler :=
  (scheduler.inputOrder, { scheduler with inputOrder := scheduler.inputOrder + 1 })

def signalEnd (scheduler : Scheduler) : Scheduler := { scheduler with endOfStream := true }

def encodeOrderFor (scheduler : Scheduler) (queued : Nat) : Nat := scheduler.encodeOrder + queued

def advance (encodeOrder : Nat) (scheduler : Scheduler) : Scheduler :=
  { scheduler with encodeOrder := encodeOrder + 1 }

def outputDone (encodeOrder : Nat) (scheduler : Scheduler) : Scheduler :=
  { scheduler with outputOrder := some encodeOrder }

def awaitsTimestamps (scheduler : Scheduler) : Bool :=
  decide (scheduler.inputOrder ≤ scheduler.gop.decodeDelay)

def state (scheduler : Scheduler) (window : Window ι) : SchedulerState :=
  if scheduler.endOfStream then .draining
  else if window.pictures.all (·.issued) then .idle
  else if scheduler.awaitsTimestamps then .accumulating
  else .scheduling

def allIssued (window : Window ι) : List Handle → Except EncodeError Bool
  | [] => .ok true
  | handle :: rest =>
    match window.find? handle with
    | none => .error .invalidReferenceState
    | some picture => if picture.issued then allIssued window rest else .ok false

def readyB (window : Window ι) : List (Handle × Picture ι) → Except EncodeError (Option Handle)
  | [] => .ok none
  | (handle, picture) :: rest =>
    if picture.issued ∨ picture.type ≠ .bidirectional then readyB window rest
    else
      match allIssued window (picture.past ++ picture.future) with
      | .error cause => .error cause
      | .ok true => .ok (some handle)
      | .ok false => readyB window rest

structure Group where
  /-- The last issued picture before the group. -/
  start : Option Handle := none
  between : List Handle := []
  /-- Pictures that wait, also those before `start`. -/
  skipped : Nat := 0
deriving DecidableEq, Repr, Inhabited

def forcedNext : List (Handle × Picture ι) → Bool
  | [] => false
  | (_, picture) :: _ => picture.forceIdr

/-- Searches the first picture that has to be an anchor: a forced IDR picture, the one after a full
group, the one at the end of a GOP, or the one before a forced IDR picture. The group before it is
given too; if there is no such picture, all waiting pictures are the group. -/
def findAnchor (gop : Gop) (group : Group) :
    List (Handle × Picture ι) → Group × Option Handle
  | [] => (group, none)
  | (handle, picture) :: rest =>
    if picture.issued then
      findAnchor gop { group with start := some handle, between := [] } rest
    else if picture.forceIdr ∨ group.skipped = gop.bPerGroup ∨
        gop.reachesEnd group.skipped gop.endsClosed = true ∨ forcedNext rest = true then
      (group, some handle)
    else
      findAnchor gop
        { group with
          between := group.between ++ [handle]
          skipped := group.skipped + 1 } rest

def closeStream (entries : List (Handle × Picture ι)) (group : Group) :
    Except Pick (Group × Handle) :=
  match entries.getLast? with
  | none => .error .endOfStream
  | some (handle, picture) =>
    if picture.complete then .error .endOfStream
    else if picture.issued then .error .pending
    else
      .ok ({ group with between := group.between.dropLast, skipped := group.skipped - 1 }, handle)

def nextAnchor (scheduler : Scheduler) (window : Window ι) : Except Pick (Group × Handle) :=
  let found : Except Pick (Group × Handle) :=
    match findAnchor scheduler.gop {} window.entries with
    | (group, some handle) => .ok (group, handle)
    | (group, none) =>
      if scheduler.endOfStream then closeStream window.entries group else .error .needMoreInput
  match found with
  | .error pick => .error pick
  | .ok result =>
    if scheduler.awaitsTimestamps ∧ scheduler.endOfStream = false then .error .needMoreInput
    else .ok result

def decideType (handle : Handle) (skipped : Nat) : Action (Scheduler × Window ι) PictureType := do
  let picture ← Action.onSecond (Window.fetch handle)
  let type ← Action.update fun (scheduler, window) =>
    let decided := scheduler.gop.nextTop picture.forceIdr skipped
    (decided.1, ({ scheduler with gop := decided.2 }, window))
  Action.onSecond <| Window.alter handle fun picture =>
    { picture with type, isReference := true, depth := 0 }
  return type

def onPast {α : Type} (action : Action (PastPictures × Window ι) α) :
    Action (Scheduler × Window ι) α :=
  Action.zoom (fun (scheduler, window) => (scheduler.past, window))
    (fun (past, window) (scheduler, _) => ({ scheduler with past }, window)) action

/-- Lays out the group before an anchor and hands back the last reference picture of both. -/
def layOutGroup (maxDepth : Nat) (group : Group) (handle : Handle) : Action (Window ι) Handle :=
  match group.start with
  | none => return handle
  | some start =>
    if 0 < group.skipped then Hierarchy.layOut maxDepth 1 start group.between handle handle
    else return handle

def buildGroup (group : Group) (handle : Handle) : Action (Scheduler × Window ι) Unit := do
  let (scheduler, _) ← Action.get
  Action.onSecond (scheduler.past.buildAnchor handle group.start group.skipped)
  let last ← Action.onSecond (layOutGroup scheduler.gop.maxBDepth group handle)
  onPast (PastPictures.addRecent last)

/-- Types an anchor and builds its group. Only an IDR picture can do without one before it. -/
def takeAnchor (group : Group) (handle : Handle) : Action (Scheduler × Window ι) Unit := do
  let type ← decideType handle group.skipped
  if type ≠ .idr ∧ group.start = none then
    let picture ← Action.onSecond (Window.fetch handle)
    Action.refuse (.noPicturePrecedes picture.displayOrder) .invalidInternalState
  else buildGroup group handle

def pickNext : Action (Scheduler × Window ι) Pick := do
  let (scheduler, window) ← Action.get
  match ← Action.ofExcept (readyB window window.entries) with
  | some handle => return .picture handle
  | none =>
    match scheduler.nextAnchor window with
    | .error pick => return pick
    | .ok (group, handle) =>
      takeAnchor group handle
      return .picture handle

def releasePast : Action (Scheduler × Window ι) Unit := onPast PastPictures.releaseRecent

end Scheduler

end VideoSchedule

import VideoSchedule.Encoder

/-!
One step of a session: take a frame in, issue a picture, and output the oldest one in flight if it
is time. Frames stay with the client's side of the session while the pipeline is full and its oldest
picture is not there. Once it is, a step takes a frame in and outputs that picture, but issues none.
-/

namespace VideoSchedule

inductive Step where
  | packet (picture : CodedPicture)
  /-- A picture was output with an empty bitstream. -/
  | empty
  | needInput
  /-- The pipeline is full and its oldest picture is not coded yet. -/
  | busy
  | endOfStream
deriving DecidableEq, Repr, Inhabited

namespace Encoder

variable {B : Backend}

/-! Pictures that leave. -/

def giveBack (picture : Picture B.Image) (backend : B.State) : B.State :=
  match picture.image with
  | some image => B.free image backend
  | none => backend

def free (picture : Picture B.Image) : Action (Encoder B) Unit :=
  Action.modify fun encoder =>
    { encoder with
      failedPictures := encoder.failedPictures + picture.failed.toNat
      backend := giveBack picture encoder.backend }

def freeAll (pictures : List (Picture B.Image)) : Action (Encoder B) Unit := pictures.forM free

def retireComplete : Action (Encoder B) Unit := do
  freeAll (← onWindow (Retirement.clear false))

def finishStream : Action (Encoder B) Unit := do
  onSchedule Scheduler.releasePast
  freeAll (← onWindow (Retirement.clear true))
  freeAll (← onWindow Retirement.clearAll)

/-! Frames that come in. -/

def warnCrop (frame : Frame) : Action (Encoder B) Unit := do
  let encoder ← Action.get
  if !frame.crop.isEmpty && !encoder.cropWarned then
    Action.note .cropIgnored
    Action.modify ({ · with cropWarned := true })
  else return ()

def warnRegions (frame : Frame) : Action (Encoder B) Unit := do
  let encoder ← Action.get
  if frame.roi && !encoder.caps.roi && !encoder.roiWarned then
    Action.note .regionsIgnored
    Action.modify ({ · with roiWarned := true })
  else return ()

/-- Enters a frame with its image. The first picture of a stream is always IDR. -/
def addPicture (frame : Frame) (image : B.Image) (encoder : Encoder B) : Encoder B :=
  let order := encoder.scheduler.inputOrder
  let picture := Picture.ofFrame order frame (order == 0 || frame.forceKey) image
  { encoder with
    scheduler := encoder.scheduler.nextInput.2
    clock := encoder.clock.recordInput order frame.pts
    window := (encoder.window.enter picture).2 }

def takeIn (frame : Frame) : Action (Encoder B) Unit := do
  warnCrop frame
  warnRegions frame
  match ← onBackend (B.alloc frame) with
  | .error cause =>
    let encoder ← Action.get
    Action.refuse (.allocationFailed encoder.scheduler.inputOrder cause) .allocationFailure
  | .ok image => Action.modify (addPicture frame image)

def signalEnd (encoder : Encoder B) : Encoder B :=
  { encoder with
    scheduler := encoder.scheduler.signalEnd
    clock :=
      match encoder.window.pictures.getLast? with
      | some tail => encoder.clock.endStream encoder.scheduler.inputOrder tail.pts
      | none => encoder.clock }

def takeNext : Action (Encoder B) Unit := do
  let encoder ← Action.get
  match encoder.waiting with
  | frame :: rest =>
    Action.modify ({ · with waiting := rest })
    takeIn frame
  | [] =>
    if encoder.draining && !encoder.scheduler.endOfStream then Action.modify signalEnd
    else return ()

/-! Pictures that are issued. -/

def referencePicture {ι : Type} (window : Window ι) (handle : Handle) :
    Except EncodeError (ReferencePicture ι) :=
  match window.find? handle with
  | none => .error .invalidReferenceState
  | some picture =>
    match picture.image with
    | none => .error .invalidReferenceState
    | some image => .ok { info := picture.info, image }

def referencesOf {ι : Type} (window : Window ι) (handle : Handle) :
    List Handle → Except EncodeError (List (ReferencePicture ι))
  | [] => .ok []
  | target :: rest =>
    if target = handle then referencesOf window handle rest
    else do
      let reference ← referencePicture window target
      let others ← referencesOf window handle rest
      return reference :: others

def requestFor (handle : Handle) (image : B.Image) : Action (Encoder B) (Request B.Image) := do
  let encoder ← Action.get
  let picture ← onWindow (Window.fetch handle)
  let past ← Action.ofExcept (referencesOf encoder.window handle picture.past)
  let future ← Action.ofExcept (referencesOf encoder.window handle picture.future)
  let dpb ← Action.ofExcept (referencesOf encoder.window handle picture.dpb)
  return { picture := picture.info, image, past, future, dpb }

def request (handle : Handle) (image : B.Image) :
    Action (Encoder B) (Except BackendError B.Promise) := do
  let request ← requestFor handle image
  onBackend (B.issue request)

def takeImage (handle : Handle) : Action (Encoder B) B.Image := do
  let picture ← onWindow (Window.fetch handle)
  let image ← Action.require picture.image .invalidInternalState
  onWindow (Window.alter handle ({ · with image := none }))
  return image

/-- A picture that the backend refused is complete and has failed. -/
def abandon (handle : Handle) (cause : BackendError) : Action (Encoder B) B.Promise := do
  let displayOrder := (← onWindow (Window.fetch handle)).displayOrder
  Action.note (.issueFailed displayOrder cause)
  onWindow (Window.alter handle ({ · with complete := true, failed := true }))
  retireComplete
  Action.fail (.issueFailure displayOrder cause)

/-- The picture is without its image while the backend is asked, and gets it back before anything
else happens, whatever the answer. -/
def issue (handle : Handle) (encodeOrder : Nat) : Action (Encoder B) B.Promise := do
  onWindow (Window.alter handle ({ · with encodeOrder := some encodeOrder }))
  let image ← takeImage handle
  let answer ← Action.attempt (request handle image)
  onWindow (Window.alter handle ({ · with image := some image, issued := true }))
  match answer with
  | .error cause => Action.fail cause
  | .ok (.error cause) => abandon handle cause
  | .ok (.ok promise) => return promise

/-! Pictures that are output. -/

def describe (handle : Handle) (noDelay : Bool) : Action (Encoder B) PacketInfo := do
  let picture ← onWindow (Window.fetch handle)
  let encodeOrder ← Action.require picture.encodeOrder .invalidInternalState
  onWindow (Window.alter handle ({ · with payload := none }))
  let dts ← onClock (DecodeClock.stamp encodeOrder picture.pts noDelay)
  return {
    dts, encodeOrder
    pts := picture.pts
    duration := picture.duration
    keyFrame := picture.type == .idr
    type := picture.type
    displayOrder := picture.displayOrder
    payload := picture.payload }

def collect (picture : Picture B.Image) (ended : Except BackendError B.Coded) :
    Action (Encoder B) (Except EncodeError (List UInt8)) := do
  match ended with
  | .error cause => return .error (.issueFailure picture.displayOrder cause)
  | .ok coded =>
    let image ← Action.require picture.image .invalidInternalState
    let bytes ← onBackend (B.output image coded)
    return bytes.mapError (.outputFailure picture.displayOrder)

def output (handle : Handle) (ended : Except BackendError B.Coded) : Action (Encoder B) Step := do
  onWindow (Window.alter handle ({ · with complete := true }))
  let picture ← onWindow (Window.fetch handle)
  match ← collect picture ended with
  | .error cause =>
    Action.note (.outputFailed cause)
    onWindow (Window.alter handle ({ · with failed := true }))
    retireComplete
    Action.fail cause
  | .ok bitstream =>
    let info ← describe handle (← Action.get).caps.undelayed
    onScheduler (Scheduler.outputDone info.encodeOrder)
    retireComplete
    return if bitstream.isEmpty then .empty else .packet { info, bitstream }

/-! Steps. -/

def pollQueue (mode : BlockingMode) :
    Action (Encoder B) (Option (Handle × Except BackendError B.Coded)) :=
  Action.update fun encoder =>
    let ready (promise : Handle × B.Promise) := B.isReady encoder.backend promise.2
    let sync (promise : Handle × B.Promise) := (promise.1, B.sync promise.2 encoder.backend)
    match encoder.queue.poll mode ready sync with
    | (some (handle, (ended, backend)), queue) => (some (handle, ended), { encoder with queue, backend })
    | (none, queue) => (none, { encoder with queue })

/-- Fills the pipeline by one picture if there is room; otherwise, or if there is none to issue, says
why. -/
def fillPipeline : Action (Encoder B) (Option Pick) := do
  let encoder ← Action.get
  if encoder.queue.isFull then return none
  else
    match ← onSchedule Scheduler.pickNext with
    | .picture handle =>
      let promise ← issue handle (encoder.scheduler.encodeOrderFor encoder.queue.size)
      onQueue (OutputQueue.add (handle, promise))
      return none
    | other => return some other

def pipelinedStep (mode : BlockingMode) : Action (Encoder B) Step := do
  let pick ← fillPipeline
  let encoder ← Action.get
  if encoder.queue.isEmpty then
    if pick = some .endOfStream then
      finishStream
      return .endOfStream
    else return .needInput
  else if !encoder.queue.isFull && !encoder.scheduler.endOfStream then return .needInput
  else
    match ← pollQueue mode with
    | none => return .busy
    | some (handle, ended) =>
      let picture ← onWindow (Window.fetch handle)
      let encodeOrder ← Action.require picture.encodeOrder .invalidInternalState
      onScheduler (Scheduler.advance encodeOrder)
      output handle ended

def directStep : Action (Encoder B) Step := do
  let encodeOrder := (← Action.get).scheduler.encodeOrderFor 0
  match ← onSchedule Scheduler.pickNext with
  | .picture handle =>
    let promise ← issue handle encodeOrder
    onScheduler (Scheduler.advance encodeOrder)
    output handle (← onBackend (B.sync promise))
  | .endOfStream =>
    finishStream
    return .endOfStream
  | .needMoreInput | .pending => return .needInput

/-- No input is taken in while the pipeline is full and nobody may wait for it. -/
def stalled (encoder : Encoder B) (mode : BlockingMode) : Bool :=
  encoder.caps.pipelined && encoder.queue.isFull && !encoder.waits mode &&
    !encoder.queue.frontIsReady fun promise => B.isReady encoder.backend promise.2

def advanceStep (mode : BlockingMode) : Action (Encoder B) Step := do
  takeNext
  let encoder ← Action.get
  if encoder.window.isEmpty then
    return if encoder.scheduler.endOfStream then .endOfStream else .needInput
  else if encoder.caps.pipelined then pipelinedStep mode
  else directStep

def tryStep (mode : BlockingMode) : Action (Encoder B) Step := do
  if (← Action.get).stalled mode then return .busy
  else advanceStep mode

def endSession (cause : EncodeError) : Action (Encoder B) Unit := do
  Action.note (.sessionEnded cause)
  Action.modify ({ · with failed := true })

/-- One step. After a fatal error there are no more steps. -/
def step (mode : BlockingMode) : Action (Encoder B) Step := do
  if (← Action.get).failed then Action.fail .sessionFailed
  else
    match ← Action.attempt (tryStep mode) with
    | .ok step => return step
    | .error cause =>
      Action.when cause.isFatal (endSession cause)
      Action.fail cause

end Encoder

end VideoSchedule

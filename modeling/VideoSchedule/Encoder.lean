import VideoSchedule.Backend
import VideoSchedule.DecodeClock
import VideoSchedule.OutputQueue
import VideoSchedule.Retirement
import VideoSchedule.Scheduler

/-!
The state of an encoding session over a backend `B`, and what a client sees of it.
-/

namespace VideoSchedule

structure PacketInfo where
  pts : Int
  dts : Int
  duration : Int
  keyFrame : Bool
  type : PictureType
  displayOrder : Nat
  encodeOrder : Nat
  payload : Option String
deriving DecidableEq, Repr, Inhabited

structure CodedPicture where
  info : PacketInfo
  bitstream : List UInt8
deriving DecidableEq, Repr, Inhabited

structure Encoder (B : Backend) where
  backend : B.State
  caps : Capabilities
  window : Window B.Image := {}
  scheduler : Scheduler
  clock : DecodeClock
  queue : OutputQueue (Handle × B.Promise)
  /-- Frames not taken into the window yet. -/
  waiting : List Frame := []
  coded : List CodedPicture := []
  mode : BlockingMode
  draining : Bool := false
  failed : Bool := false
  /-- Pictures retired without a packet because the backend failed. -/
  failedPictures : Nat := 0
  cropWarned : Bool := false
  roiWarned : Bool := false

namespace Encoder

variable {B : Backend} {σ α : Type}

def create (backend : B.State) (config : Config) (mode : BlockingMode) :
    Action σ (Encoder B) := do
  Action.ofExcept config.validate
  let caps := B.capabilities backend
  let gop ← Gop.create config caps
  return {
    backend, caps, mode
    scheduler := Scheduler.ofGop gop
    clock := DecodeClock.start gop.outputDelay gop.decodeDelay config.asyncDepth
    queue := { mode, capacity := config.asyncDepth } }

def state (encoder : Encoder B) : SchedulerState := encoder.scheduler.state encoder.window

def inFlight (encoder : Encoder B) : Nat := encoder.queue.size

def windowSize (encoder : Encoder B) : Nat := encoder.window.size

def unissued (encoder : Encoder B) : Nat := encoder.window.pictures.countP (fun p => !p.issued)

def waits (encoder : Encoder B) (mode : BlockingMode) : Bool :=
  encoder.mode == .blocking || mode == .blocking

/-- Another step may get further without more input. -/
def canProgress (encoder : Encoder B) : Bool :=
  !encoder.waiting.isEmpty || (encoder.draining && !encoder.scheduler.endOfStream)

/-! Actions on the parts of a session. -/

def onWindow (action : Action (Window B.Image) α) : Action (Encoder B) α :=
  Action.zoom Encoder.window (fun window encoder => { encoder with window }) action

def onSchedule (action : Action (Scheduler × Window B.Image) α) : Action (Encoder B) α :=
  Action.zoom (fun encoder => (encoder.scheduler, encoder.window))
    (fun (scheduler, window) encoder => { encoder with scheduler, window }) action

def onClock (action : Action DecodeClock α) : Action (Encoder B) α :=
  Action.zoom Encoder.clock (fun clock encoder => { encoder with clock }) action

def onQueue (action : Action (OutputQueue (Handle × B.Promise)) α) : Action (Encoder B) α :=
  Action.zoom Encoder.queue (fun queue encoder => { encoder with queue }) action

def onScheduler (change : Scheduler → Scheduler) : Action (Encoder B) Unit :=
  Action.modify fun encoder => { encoder with scheduler := change encoder.scheduler }

def onBackend (call : B.State → α × B.State) : Action (Encoder B) α :=
  Action.update fun encoder =>
    let (answer, backend) := call encoder.backend
    (answer, { encoder with backend })

end Encoder

end VideoSchedule

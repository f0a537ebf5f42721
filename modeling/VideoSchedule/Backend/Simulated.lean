import VideoSchedule.Backend
import VideoSchedule.Packet.Codec
import VideoSchedule.Worker

/-!
A backend without hardware. Its bitstreams are packets that describe the pictures, and it counts what
it was asked to do.
-/

namespace VideoSchedule

inductive Completion where
  | immediate
  /-- When it is completed by hand, or waited for. -/
  | manual
  /-- When a worker has run its job. -/
  | threaded
deriving DecidableEq, Repr, Inhabited

structure Device where
  caps : Capabilities
  completion : Completion
  issued : Array Packet := #[]
  freed : Array Nat := #[]
  allocated : Nat := 0
  inFlight : Nat := 0
  maxInFlight : Nat := 0
  completed : List Nat := []
  worker : Worker Packet := {}
  failAlloc : Option Nat := none
  /-- Display order of a picture that cannot be issued, and whether that is fatal. -/
  failIssue : Option (Nat × Bool) := none
  failOutput : Option Nat := none
  emptyOutput : Option Nat := none

inductive DevicePromise where
  | ready (packet : Packet)
  | manual (packet : Packet)
  | threaded (job : Nat)
deriving DecidableEq, Repr, Inhabited

def Packet.ofRequest {ι : Type} (request : Request ι) : Packet :=
  let orders := List.map fun (reference : ReferencePicture ι) =>
    UInt64.ofNat reference.info.displayOrder
  { displayOrder := UInt64.ofNat request.picture.displayOrder
    encodeOrder := UInt64.ofNat request.picture.encodeOrder
    type := request.picture.type
    depth := request.picture.depth
    isReference := request.picture.isReference
    past := orders request.past
    future := orders request.future
    dpb := orders request.dpb }

namespace Device

def create (completion : Completion) (caps : Option Capabilities) : Device where
  caps := caps.getD { pipelined := completion != .immediate }
  completion := completion

def complete (displayOrder : Nat) (device : Device) : Device :=
  { device with completed := displayOrder :: device.completed }

def issuedOrders (device : Device) : List Nat :=
  device.issued.toList.map fun packet => packet.displayOrder.toNat

def alloc (device : Device) : Except BackendError Nat × Device :=
  if device.failAlloc = some device.allocated then (.error .outOfResources, device)
  else (.ok device.allocated, { device with allocated := device.allocated + 1 })

def refusal? (request : Request Nat) (device : Device) : Option BackendError :=
  let displayOrder := request.picture.displayOrder
  if device.caps.maxPastRefs < request.past.length ∨
      device.caps.maxFutureRefs < request.future.length then
    some (.other ("too many references for picture " ++ toString displayOrder))
  else
    match device.failIssue with
    | some (place, fatal) =>
      if place = displayOrder then
        let reason := "injected issue failure"
        some (if fatal then .fatal reason else .other reason)
      else none
    | none => none

def start (packet : Packet) (device : Device) : DevicePromise × Device :=
  match device.completion with
  | .immediate => (.ready packet, device)
  | .manual => (.manual packet, device)
  | .threaded =>
    let (job, worker) := device.worker.submit { result := .ok packet }
    (.threaded job, { device with worker })

def issue (request : Request Nat) (device : Device) :
    Except BackendError DevicePromise × Device :=
  match device.refusal? request with
  | some error => (.error error, device)
  | none =>
    let packet := Packet.ofRequest request
    let (promise, after) := device.start packet
    (.ok promise,
      { after with
        issued := device.issued.push packet
        inFlight := device.inFlight + 1
        maxInFlight := max device.maxInFlight (device.inFlight + 1) })

def isReady (device : Device) : DevicePromise → Bool
  | .ready _ => true
  | .manual packet => device.completed.contains packet.displayOrder.toNat
  | .threaded job => device.worker.isReady job

def sync (promise : DevicePromise) (device : Device) : Except BackendError Packet × Device :=
  match promise with
  | .ready packet => (.ok packet, device)
  | .manual packet => (.ok packet, device.complete packet.displayOrder.toNat)
  | .threaded job =>
    let (result, worker) := device.worker.sync? job
    (result.getD (.error (.fatal "the job never ended")), { device with worker })

def output (packet : Packet) (device : Device) : Except BackendError (List UInt8) × Device :=
  let after := { device with inFlight := device.inFlight - 1 }
  let displayOrder := packet.displayOrder.toNat
  if device.failOutput = some displayOrder then (.error .outOfResources, after)
  else if device.emptyOutput = some displayOrder then (.ok [], after)
  else (packet.toBytes.mapError fun cause => .other cause.message, after)

def free (image : Nat) (device : Device) : Device :=
  { device with freed := device.freed.push image }

end Device

abbrev Backend.simulated : Backend where
  State := Device
  Image := Nat
  Promise := DevicePromise
  Coded := Packet
  capabilities device := device.caps
  alloc _ device := device.alloc
  issue request device := device.issue request
  isReady device promise := device.isReady promise
  sync promise device := device.sync promise
  output _ packet device := device.output packet
  free image device := device.free image

end VideoSchedule

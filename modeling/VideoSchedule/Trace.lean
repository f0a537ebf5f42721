import VideoSchedule.Backend.Simulated
import VideoSchedule.Checksum
import VideoSchedule.Encoder.Client
import VideoSchedule.Trace.Destination
import VideoSchedule.Trace.Options
import VideoSchedule.Trace.Utf8

/-!
The schedule trace: encodes a synthetic stream on the simulated backend and prints one line for each
packet, in the order in which they come out.
-/

namespace VideoSchedule.Trace

inductive Event where
  | line (text : String)
  | bytes (chunk : List UInt8)
deriving DecidableEq, Repr, Inhabited

namespace Event

def line? : Event → Option String
  | line text => some text
  | bytes _ => none

def chunk : Event → List UInt8
  | line _ => []
  | bytes chunk => chunk

def needsNoRoom (event : Event) : Bool := event.chunk.isEmpty

/-- What reaches standard output if the file is standard output too. -/
def printed : Event → List UInt8
  | line text => (text ++ "\n").toUTF8.toList
  | bytes chunk => chunk

end Event

structure Report where
  exitCode : Nat
  events : List Event := []
  complaint : Option String := none
deriving DecidableEq, Repr, Inhabited

namespace Report

def lines (report : Report) : List String := report.events.filterMap Event.line?

def bytes (report : Report) : List UInt8 := report.events.flatMap Event.chunk

end Report

structure Transcript where
  exitCode : Nat
  lines : List String := []
  file : Option (List UInt8) := none
deriving DecidableEq, Repr, Inhabited

def Options.config (options : Options) : Config where
  gopSize := options.gopSize
  maxBFrames := options.bFrames
  idrInterval := options.idrInterval
  bDepth := options.bDepth
  asyncDepth := options.asyncDepth
  closedGop := options.closedGop

def Options.device (options : Options) : Device :=
  match options.mode with
  | .sync => Device.create .immediate none
  | .async => Device.create .immediate (some { pipelined := true })
  | .threaded => Device.create .threaded none

def Options.frame (options : Options) (index : Nat) : Frame :=
  let framerate := max 1 options.framerate
  { pts := (Tick.wrap (index * 1000)).tdiv framerate
    duration := Int.ofNat (1000 / framerate)
    forceKey := options.forceIdr.contains index }

def Options.stream (options : Options) : List Frame :=
  (List.range options.frames).map options.frame

def alignRight (width : Nat) (text : String) : String :=
  String.ofList (List.replicate (width - text.length) ' ') ++ text

def ordersText (orders : List UInt64) : String :=
  "[" ++ ", ".intercalate (orders.map fun order => toString order.toNat) ++ "]"

def wordText (value : UInt32) : String :=
  let digits := Nat.toDigits 16 value.toNat
  String.ofList (List.replicate (8 - digits.length) '0' ++ digits)

def header : String := "encode  order type depth ref      pts      dts  references"

def packetLine (info : PacketInfo) (packet : Packet) : String :=
  " ".intercalate
    [alignRight 6 (toString info.encodeOrder), alignRight 6 (toString info.displayOrder),
      alignRight 4 info.type.name, alignRight 5 (toString packet.depth),
      alignRight 3 (if packet.isReference then "R" else "-"),
      alignRight 8 (toString info.pts), alignRight 8 (toString info.dts)] ++
    "  L0=" ++ ordersText packet.past ++ " L1=" ++ ordersText packet.future ++
    " DPB=" ++ ordersText packet.dpb

def line? (coded : CodedPicture) : Option String :=
  match Packet.ofBytes coded.bitstream with
  | .ok packet => some (packetLine coded.info packet)
  | .error _ => none

def summary (device : Device) (bytes : List UInt8) : String :=
  toString device.issued.size ++ " pictures issued, " ++ toString device.freed.size ++
    " freed, at most " ++ toString device.maxInFlight ++ " in flight, stream crc32 " ++
    wordText (Checksum.crc32 bytes)

def packetEvents (coded : CodedPicture) : List Event :=
  (line? coded).toList.map Event.line ++ [.bytes coded.bitstream]

def reportOf (result : Encoder.StreamResult) (device : Device) : Report :=
  let events := .line header :: result.packets.flatMap packetEvents
  match result.ending with
  | .error cause => { exitCode := 101, events, complaint := some cause.message }
  | .ok _ =>
    let bytes := result.packets.flatMap CodedPicture.bitstream
    { exitCode := 0, events := events ++ [.line (summary device bytes)] }

def trace (options : Options) (encoder : Encoder Backend.simulated) : Report :=
  let streamed := (Encoder.encodeStream options.stream).run encoder
  match streamed.result with
  | .error cause =>
    { exitCode := 101, events := [.line header], complaint := some cause.message }
  | .ok result => reportOf result (Encoder.release.run streamed.state).state.backend

def prepare (parsed : Except UsageError Options) :
    Except Report (Options × Encoder Backend.simulated) :=
  match parsed with
  | .error cause => .error { exitCode := 1, complaint := some cause.message }
  | .ok options =>
    let created := (Encoder.create options.device options.config .blocking :
      Action Unit (Encoder Backend.simulated)).run ()
    match created.result with
    | .error cause => .error { exitCode := 101, complaint := some cause.message }
    | .ok encoder => .ok (options, encoder)

def Report.withoutRoom (report : Report) : Report :=
  if report.events.all Event.needsNoRoom then report
  else { exitCode := 101, events := report.events.takeWhile Event.needsNoRoom }

/-- Carries a report out. The file is made before anything is printed. -/
def Report.transcript (report : Report) : Option Destination → Transcript
  | none => { exitCode := report.exitCode, lines := report.lines }
  | some .accepted =>
    { exitCode := report.exitCode, lines := report.lines, file := some report.bytes }
  | some .refused => { exitCode := 101 }
  | some .full =>
    { exitCode := report.withoutRoom.exitCode, lines := report.withoutRoom.lines, file := some [] }
  | some .standardOutput =>
    { exitCode := report.exitCode
      lines := Utf8.lines (Utf8.decode (report.events.flatMap Event.printed)) }

/-- What surrounds a trace: how its arguments are read, and where a path leads. -/
structure Host where
  parse : List String → Except UsageError Options
  destination : String → Destination

def Host.run (host : Host) (arguments : List String) : Transcript :=
  match prepare (host.parse arguments) with
  | .error report => report.transcript none
  | .ok (options, encoder) =>
    (trace options encoder).transcript (options.output.map host.destination)

def FileTree.host (tree : FileTree) : Host where
  parse := parse
  destination := tree.destination

def run (tree : FileTree) (arguments : List String) : Transcript := tree.host.run arguments

end VideoSchedule.Trace

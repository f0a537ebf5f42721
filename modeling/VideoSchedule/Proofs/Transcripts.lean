import Mathlib
import VideoSchedule.Proofs.Listing
import VideoSchedule.Proofs.Unrecorded
import VideoSchedule.Trace

/-!
What a schedule trace prints and writes. All of it but the number of pictures in flight follows from
the frames and from the structure of the stream, so it is the same in every mode.
-/

namespace VideoSchedule

theorem Gop.exists_ofConfig? {caps : Capabilities} (config : Config)
    (references : 1 ≤ caps.maxPastRefs) : ∃ gop, ofConfig? config caps = some gop := by
  simp only [ofConfig?]
  split
  · exact ⟨_, rfl⟩
  rw [if_neg (Nat.not_lt.mpr references)]
  split <;> exact ⟨_, rfl⟩

theorem Encoder.Exhausted.unrecorded {B : Backend} {encoder : Encoder B.recorded}
    (exhausted : encoder.Exhausted) : encoder.unrecorded.Exhausted := by
  refine ⟨exhausted.window, ?_, exhausted.waiting, exhausted.ended, exhausted.draining⟩
  rw [Encoder.unrecorded, exhausted.queue]
  rfl

namespace Trace

open VideoSchedule.Encoder

namespace Options

def gop (options : Options) : Gop := (Gop.ofConfig? options.config {}).getD default

def packets (options : Options) : List CodedPicture := options.gop.listing options.stream

def bytes (options : Options) : List UInt8 := options.packets.flatMap CodedPicture.bitstream

def tally (options : Options) (inFlight : Nat) : String :=
  toString options.frames ++ " pictures issued, " ++ toString options.frames ++
    " freed, at most " ++ toString inFlight ++ " in flight, stream crc32 " ++
    wordText (Checksum.crc32 options.bytes)

/-- What a trace reports that comes to its end. -/
def report (options : Options) (inFlight : Nat) : Report where
  exitCode := 0
  events := .line header :: options.packets.flatMap packetEvents ++ [.line (options.tally inFlight)]

/-- What such a trace leaves if its file can be made and has room. -/
def transcript (options : Options) (inFlight : Nat) : Transcript where
  exitCode := 0
  lines := header :: options.packets.filterMap line? ++ [options.tally inFlight]
  file := options.output.map fun _ => options.bytes

variable {options other : Options}

theorem length_stream (options : Options) : options.stream.length = options.frames := by
  rw [stream, List.length_map, List.length_range]

theorem ofConfig?_caps (options : Options) :
    Gop.ofConfig? options.config options.device.caps = Gop.ofConfig? options.config {} := by
  rw [device]
  cases options.mode <;> rfl

theorem suited (valid : options.config.Valid) :
    Suited options.device options.config options.gop := by
  refine ⟨?_, valid, ?_⟩
  · rw [device]
    cases options.mode <;> exact ⟨Device.sure_create _ _, rfl, rfl⟩
  · have onePast : 1 ≤ ({} : Capabilities).maxPastRefs := Nat.le_refl 1
    obtain ⟨gop, made⟩ := Gop.exists_ofConfig? options.config onePast
    rw [ofConfig?_caps, Options.gop, made, Option.getD_some]

theorem delayed (options : Options) : options.device.caps.undelayed = false := by
  rw [device]
  cases options.mode <;> rfl

end Options

variable {options other : Options} {arguments others : List String} {inFlight : Nat}

abbrev session (options : Options) : Encoder Backend.simulated :=
  opened options.device options.gop options.config .blocking

theorem reportOf_packets {device : Device} (issued : device.issued.size = options.frames)
    (freed : device.freed.size = options.frames) :
    reportOf { packets := options.packets, ending := .ok (), left := [] } device =
      options.report device.maxInFlight := by
  simp only [reportOf, summary, issued, freed]
  rfl

theorem trace_session (valid : options.config.Valid) :
    ∃ inFlight, trace options (session options) = options.report inFlight := by
  obtain ⟨admitted, last, frames, whole, runs⟩ :=
    (Options.suited valid).encodes options.delayed options.stream
  have count : admitted.length = options.frames := by
    rw [← options.length_stream, ← frames, List.length_map]
  have issued : last.backend.inner.issued.size = options.frames := whole.issued.trans count
  have freed : last.backend.inner.freed.size = options.frames := whole.freed.trans count
  have mirrored := encodeStream_unrecords (B := Backend.simulated) options.stream
    (openedOn options.device options.gop options.config .blocking)
  rw [runs.result_eq, runs.state_eq] at mirrored
  have streamed : (encodeStream options.stream).run (session options) =
      ⟨.ok { packets := options.packets, ending := .ok (), left := [] }, last.unrecorded, _⟩ :=
    mirrored
  have released : (release.run last.unrecorded).state.backend = last.backend.inner :=
    congrArg backend whole.told.exhausted.unrecorded.release_runs.state_eq
  refine ⟨last.backend.inner.maxInFlight, ?_⟩
  simp only [trace, streamed]
  rw [released, reportOf_packets issued freed]

theorem prepare_ok (valid : options.config.Valid) :
    prepare (.ok options) = .ok (options, session options) := by
  have created := create_opened (B := Backend.simulated) valid (Options.suited valid).made .blocking
  simp only [prepare, Action.run, created]

theorem Host.run_eq_report (host : Host) (parsed : host.parse arguments = .ok options)
    (valid : options.config.Valid) : ∃ inFlight,
      host.run arguments =
        (options.report inFlight).transcript (options.output.map host.destination) := by
  obtain ⟨inFlight, traced⟩ := trace_session valid
  refine ⟨inFlight, ?_⟩
  simp only [Host.run, parsed, prepare_ok valid, traced]

theorem lines_packetEvents (coded : CodedPicture) :
    (packetEvents coded).filterMap Event.line? = (line? coded).toList := by
  rw [packetEvents]
  cases line? coded <;> rfl

theorem chunks_packetEvents (coded : CodedPicture) :
    (packetEvents coded).flatMap Event.chunk = coded.bitstream := by
  rw [packetEvents]
  cases line? coded <;> exact List.append_nil _

theorem lines_report (options : Options) (inFlight : Nat) :
    (options.report inFlight).lines =
      header :: options.packets.filterMap line? ++ [options.tally inFlight] := by
  rw [Report.lines, Options.report, List.filterMap_append, List.filterMap_cons, List.filterMap_flatMap]
  simp only [lines_packetEvents, ← List.filterMap_eq_flatMap_toList]
  rfl

theorem bytes_report (options : Options) (inFlight : Nat) :
    (options.report inFlight).bytes = options.bytes := by
  rw [Report.bytes, Options.report, List.flatMap_append, List.flatMap_cons, List.flatMap_assoc]
  simp only [chunks_packetEvents]
  exact List.append_nil _

theorem transcript_report {host : Host}
    (accepted : ∀ path, options.output = some path → host.destination path = .accepted) :
    (options.report inFlight).transcript (options.output.map host.destination) =
      options.transcript inFlight := by
  rw [Options.transcript, ← lines_report options inFlight]
  cases output : options.output with
  | none => rfl
  | some path =>
      rw [Option.map_some, accepted path output, Report.transcript, bytes_report]
      rfl

theorem exitCode_report {host : Host}
    (written : ∀ path, options.output = some path →
      host.destination path ≠ .refused ∧ host.destination path ≠ .full) :
    ((options.report inFlight).transcript (options.output.map host.destination)).exitCode = 0 := by
  cases output : options.output with
  | none => rfl
  | some path =>
      obtain ⟨made, room⟩ := written path output
      rw [Option.map_some]
      cases destination : host.destination path with
      | accepted | standardOutput => rfl
      | refused => exact absurd destination made
      | full => exact absurd destination room

theorem length_lines (valid : options.config.Valid) :
    (options.packets.filterMap line?).length = options.frames := by
  obtain ⟨admitted, last, frames, whole, _⟩ :=
    (Options.suited valid).encodes options.delayed options.stream
  have readable := whole.readable
  rw [frames] at readable
  have all : ∀ coded ∈ options.packets, (line? coded).isSome := by
    intro coded member
    obtain ⟨packet, read⟩ := readable coded member
    rw [line?, read]
    rfl
  have count := congrArg List.length (options.gop.orders_listing options.stream).1
  rw [List.length_map, List.length_range, options.length_stream] at count
  rw [← count]
  exact List.filterMap_length_eq_length.mpr all

theorem report_of_same
    (same : other = { options with mode := other.mode, asyncDepth := other.asyncDepth }) :
    other.report = options.report := by
  rw [same]
  rfl

/-- The time of every frame can be computed in 64 bits. -/
def Options.Short (options : Options) : Prop :=
  ∀ index : Nat, index < options.frames → (index * 1000 : Int) ≤ Tick.highest

instance (options : Options) : Decidable options.Short := inferInstanceAs (Decidable (∀ _, _))

theorem Options.frame_pts (short : options.Short) {index : Nat} (inside : index < options.frames) :
    (options.frame index).pts = ↑(index * 1000 / max 1 options.framerate) := by
  have fits : Tick.InRange (index * 1000) := by
    refine ⟨?_, short index inside⟩
    rw [Tick.lowest]
    omega
  rw [Options.frame]
  dsimp only
  rw [Tick.wrap_of_inRange fits]
  norm_cast

theorem Options.packets_pts (short : options.Short) {coded : CodedPicture}
    (member : coded ∈ options.packets) :
    coded.info.pts = ↑(coded.info.displayOrder * 1000 / max 1 options.framerate) := by
  obtain ⟨inside, shown⟩ := Gop.pts_of_mem_listing member
  rw [options.length_stream] at inside
  have frame : options.stream.getD coded.info.displayOrder {} =
      options.frame coded.info.displayOrder := by
    simp [Options.stream, inside]
  rw [shown, frame, Options.frame_pts short inside]

/-- Traces whose arguments differ in nothing but the mode and the depth of the pipeline report the
same, up to the number of pictures in flight, whatever surrounds them. There is one line for each
frame, and the times of the frames do not leave their 64 bits. -/
theorem Host.run_same_in_every_mode (host : Host) (parsed : host.parse arguments = .ok options)
    (valid : options.config.Valid) (short : options.Short)
    (parsedOther : host.parse others = .ok other) (validOther : other.config.Valid)
    (same : other = { options with mode := other.mode, asyncDepth := other.asyncDepth }) :
    ∃ inFlight inFlightOther,
      host.run arguments =
        (options.report inFlight).transcript (options.output.map host.destination) ∧
      host.run others =
        (options.report inFlightOther).transcript (options.output.map host.destination) ∧
      options.packets.map (fun coded => coded.info.encodeOrder) = List.range options.frames ∧
      (options.packets.map fun coded => coded.info.displayOrder).Perm (List.range options.frames) ∧
      (∀ coded ∈ options.packets,
        coded.info.pts = ↑(coded.info.displayOrder * 1000 / max 1 options.framerate)) ∧
      (options.packets.filterMap line?).length = options.frames ∧
      ((∀ path, options.output = some path →
          host.destination path ≠ .refused ∧ host.destination path ≠ .full) →
        (host.run arguments).exitCode = 0 ∧ (host.run others).exitCode = 0) ∧
      ((∀ path, options.output = some path → host.destination path = .accepted) →
        host.run arguments = options.transcript inFlight ∧
        host.run others = options.transcript inFlightOther) := by
  obtain ⟨inFlight, ran⟩ := host.run_eq_report parsed valid
  obtain ⟨inFlightOther, ranOther⟩ := host.run_eq_report parsedOther validOther
  have output : other.output = options.output := by rw [same]
  obtain ⟨encodeOrders, displayOrders⟩ := options.gop.orders_listing options.stream
  rw [options.length_stream] at encodeOrders displayOrders
  rw [report_of_same same, output] at ranOther
  refine ⟨inFlight, inFlightOther, ran, ranOther, encodeOrders, displayOrders,
    fun coded => Options.packets_pts short, length_lines valid, fun written => ?_,
    fun accepted => ?_⟩
  · rw [ran, ranOther]
    exact ⟨exitCode_report written, exitCode_report written⟩
  · rw [ran, ranOther]
    exact ⟨transcript_report accepted, transcript_report accepted⟩

def openRoot : Host := FileTree.host { current := [], entries := [([], .directory true)] }

theorem run_same_threaded :
    openRoot.parse ["--frames", "3", "--output", "out"] =
        .ok { frames := 3, output := some "out" } ∧
      openRoot.parse ["--frames", "3", "--output", "out", "--mode", "threaded", "--async-depth", "4"] =
        .ok { frames := 3, output := some "out", mode := .threaded, asyncDepth := 4 } ∧
      ∃ inFlight inFlightOther,
        openRoot.run ["--frames", "3", "--output", "out"] =
          ({ frames := 3, output := some "out" } : Options).transcript inFlight ∧
        openRoot.run ["--frames", "3", "--output", "out", "--mode", "threaded", "--async-depth", "4"] =
          ({ frames := 3, output := some "out" } : Options).transcript inFlightOther := by
  have parsed : openRoot.parse ["--frames", "3", "--output", "out"] =
      .ok { frames := 3, output := some "out" } := by decide +kernel
  have parsedOther :
      openRoot.parse ["--frames", "3", "--output", "out", "--mode", "threaded", "--async-depth", "4"] =
        .ok { frames := 3, output := some "out", mode := .threaded, asyncDepth := 4 } := by
    decide +kernel
  have short : ({ frames := 3, output := some "out" } : Options).Short := by
    decide
  obtain ⟨inFlight, inFlightOther, _, _, _, _, _, _, _, ran⟩ :=
    Host.run_same_in_every_mode openRoot parsed (by constructor <;> decide) short parsedOther
      (by constructor <;> decide) rfl
  refine ⟨parsed, parsedOther, inFlight, inFlightOther, ran ?_⟩
  rintro path ⟨⟩
  cbv

theorem FileTree.destination_empty (tree : FileTree) : tree.destination "" = .refused := by
  have short : ¬maxPath < "".utf8ByteSize := by decide
  have parts : names "" = [""] := by cbv
  rw [destination, if_neg short, parts, follow, if_pos (Or.inl rfl), follow]

/-- A file without a name cannot be made, and then nothing is printed. -/
theorem run_without_name :
    openRoot.parse ["--frames", "1", "--output", ""] = .ok { frames := 1, output := some "" } ∧
      ({ frames := 1, output := some "" } : Options).config.Valid ∧
      openRoot.run ["--frames", "1", "--output", ""] = { exitCode := 101 } := by
  have parsed : openRoot.parse ["--frames", "1", "--output", ""] =
      .ok { frames := 1, output := some "" } := by decide +kernel
  have valid : ({ frames := 1, output := some "" } : Options).config.Valid := by
    constructor <;> decide
  obtain ⟨inFlight, ran⟩ := openRoot.run_eq_report parsed valid
  refine ⟨parsed, valid, ?_⟩
  have refused : openRoot.destination "" = .refused := FileTree.destination_empty _
  rw [ran, Option.map_some, refused]
  rfl

end Trace

end VideoSchedule

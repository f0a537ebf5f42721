import VideoSchedule.Proofs.Clock
import VideoSchedule.Proofs.Lookahead

/-!
Decode timestamps of a session. A session that waits for its pictures, or has one at a time, never
has more frames between admission and output than the ring of its clock has room for, so that every
timestamp is still there when it is read.
-/

namespace VideoSchedule

namespace Encoder

open VideoSchedule.Action Window DecodeClock Recorded

variable {B : Backend} {before middle after encoder : Encoder B.recorded} {origin : Cursor}
  {admitted : List (Frame × B.Image)} {flight later : List (Handle × B.recorded.Promise)}
  {packets more : List CodedPicture} {ledger : Ledger B.recorded} {handle : Handle}
  {scheduler : Scheduler} {window : Window B.recorded.Image}

def times (encoder : Encoder B.recorded) : List Int :=
  encoder.backend.allocations.map fun entry => entry.1.pts

/-- The encode orders of the pictures that were output; those that failed are left out. -/
def outputs (encoder : Encoder B.recorded) : List Nat :=
  encoder.backend.fates.filterMap fun fate => fate.2.map fun _ => fate.1.encodeOrder

theorem outputs_of_adds {allocated : List (Frame × Option B.Image)}
    {requested refused : List (Request B.Image)} {ended : List Fate}
    (adds : before.backend.Adds after.backend allocated requested refused ended) :
    after.outputs = before.outputs ++
      ended.filterMap fun fate => fate.2.map fun _ => fate.1.encodeOrder := by
  rw [outputs, adds.fates, List.filterMap_append, outputs]

structure Geared (encoder : Encoder B.recorded) : Prop where
  reorders : 0 < encoder.scheduler.gop.bPerGroup
  shallow : encoder.scheduler.gop.maxBDepth ≤ encoder.scheduler.gop.bPerGroup
  outputDelay : encoder.clock.outputDelay = encoder.scheduler.gop.bPerGroup
  decodeDelay : encoder.clock.decodeDelay = encoder.scheduler.gop.maxBDepth
  size : encoder.clock.ring.length = 3 * encoder.scheduler.gop.bPerGroup + encoder.queue.capacity
  delayed : encoder.caps.undelayed = false

theorem Geared.of_setting (geared : Geared before) (setting : Setting before after) :
    Geared after := by
  constructor
  case reorders =>
    rw [setting.bPerGroup]
    exact geared.reorders
  case shallow =>
    rw [setting.bPerGroup, setting.maxBDepth]
    exact geared.shallow
  case outputDelay => rw [setting.outputDelay, setting.bPerGroup, geared.outputDelay]
  case decodeDelay => rw [setting.decodeDelay, setting.maxBDepth, geared.decodeDelay]
  case size => rw [setting.slots, setting.bPerGroup, setting.capacity, geared.size]
  case delayed => rw [setting.caps, geared.delayed]

/-- How many frames are between admission and output, and what the clock knows of them. Nothing is
asked for before the timestamps can start. -/
structure Timed (packets : List CodedPicture) (encoder : Encoder B.recorded)
    (flight : List (Handle × B.recorded.Promise)) : Prop where
  geared : Geared encoder
  entered : encoder.scheduler.inputOrder = encoder.times.length
  counted : encoder.times.length = encoder.backend.requests.length + unissuedIn encoder.window
  waits : unissuedIn encoder.window ≤ encoder.scheduler.gop.bPerGroup + 1
  few : flight.length ≤ encoder.queue.capacity
  tracks : encoder.clock.Tracks encoder.times
  settled : encoder.clock.decodeDelay < encoder.times.length ∨
    encoder.scheduler.endOfStream = true ∧ encoder.times ≠ [] →
      encoder.clock.offset = lead encoder.times encoder.clock.decodeDelay
  quiet : encoder.times.length ≤ encoder.clock.decodeDelay →
    encoder.scheduler.endOfStream = false → encoder.backend.requests = []
  stamped : encoder.backend.refusals = [] →
    Stamped encoder.times encoder.clock.decodeDelay encoder.outputs encoder.clock.lastDts
      (packets.map CodedPicture.info)

theorem times_of_adds {requested refused : List (Request B.Image)} {ended : List Fate}
    (adds : before.backend.Adds after.backend [] requested refused ended) :
    after.times = before.times := by
  rw [times, adds.allocations, List.append_nil, times]

theorem Timed.of_adds (timed : Timed packets before flight) {ended : List Fate}
    (adds : before.backend.Adds after.backend [] [] [] ended) (setting : Setting before after)
    {last : Option Int} (clock : after.clock = { before.clock with lastDts := last })
    (entered : after.scheduler.inputOrder = before.scheduler.inputOrder)
    (ending : after.scheduler.endOfStream = before.scheduler.endOfStream)
    (unissued : unissuedIn after.window = unissuedIn before.window)
    (few : later.length ≤ flight.length)
    (stamped : before.backend.refusals = [] → Stamped before.times before.clock.decodeDelay
      (before.outputs ++ ended.filterMap fun fate => fate.2.map fun _ => fate.1.encodeOrder) last
      ((packets ++ more).map CodedPicture.info)) :
    Timed (packets ++ more) after later := by
  have timesEq := times_of_adds adds
  have requestsEq := adds.requests
  rw [List.append_nil] at requestsEq
  constructor
  case geared => exact timed.geared.of_setting setting
  case entered => rw [entered, timesEq, timed.entered]
  case counted => rw [timesEq, requestsEq, unissued, timed.counted]
  case waits =>
    rw [unissued, setting.bPerGroup]
    exact timed.waits
  case few =>
    rw [setting.capacity]
    exact few.trans timed.few
  case tracks =>
    rw [timesEq, clock]
    exact ⟨timed.tracks.recorded, timed.tracks.firstPts⟩
  case settled =>
    rw [timesEq, clock, ending]
    exact timed.settled
  case quiet =>
    rw [timesEq, clock, ending, requestsEq]
    exact timed.quiet
  case stamped =>
    intro accepted
    rw [adds.refusals, List.append_nil] at accepted
    rw [timesEq, clock, outputs_of_adds adds]
    exact stamped accepted

theorem Stands.late {cues : List Bool} (stands : Stands origin cues [] before)
    (core : before.Core ledger [] flight)
    (picks : Runs Scheduler.pickNext (before.scheduler, before.window) (.ok (.picture handle))
      (scheduler, window)) :
    before.scheduler.awaitsTimestamps = false ∨ before.scheduler.endOfStream = true := by
  cases stands with
  | within plot => exact plot.picks_late core.tidy picks
  | through _ ended => exact Or.inr ended

theorem Timed.ask (timed : Timed packets before flight) (tells : Tells origin admitted before)
    (core : before.Core ledger [] flight)
    (picks : Runs Scheduler.pickNext (before.scheduler, before.window) (.ok (.picture handle))
      (scheduler, window)) {request : Request B.Image} {refused : List (Request B.Image)}
    {ended : List Fate} (adds : before.backend.Adds after.backend [] [request] refused ended)
    (setting : Setting before after) (clock : after.clock = before.clock)
    (scheduled : after.scheduler = scheduler)
    (unissued : unissuedIn after.window + 1 = unissuedIn before.window)
    (few : later.length ≤ before.queue.capacity)
    (same : refused = [] → ended = []) : Timed packets after later := by
  obtain ⟨schedules, _⟩ := core.picked picks
  have timesEq := times_of_adds adds
  constructor
  case geared => exact timed.geared.of_setting setting
  case entered => rw [scheduled, schedules.inputOrder, timesEq, timed.entered]
  case counted =>
    rw [timesEq, timed.counted, adds.requests, List.length_append, List.length_singleton]
    omega
  case waits =>
    have waits := timed.waits
    rw [setting.bPerGroup]
    omega
  case few =>
    rw [setting.capacity]
    exact few
  case tracks =>
    rw [timesEq, clock]
    exact timed.tracks
  case settled =>
    rw [timesEq, clock, scheduled, schedules.endOfStream]
    exact timed.settled
  case quiet =>
    rw [timesEq, clock, scheduled, schedules.endOfStream]
    intro early goesOn
    have stands := tells.stands
    rw [timed.quiet early goesOn] at stands
    -- the first pick of all has waited until the decode delay was over
    have late := (stands.late core picks).resolve_right (by simp [goesOn])
    rw [Scheduler.awaitsTimestamps, decide_eq_false_iff_not, timed.entered, Gop.decodeDelay,
      ← timed.geared.decodeDelay] at late
    exact absurd early late
  case stamped =>
    intro accepted
    rw [adds.refusals, List.append_eq_nil_iff] at accepted
    rw [timesEq, clock, outputs_of_adds adds, same accepted.2, List.filterMap_nil, List.append_nil]
    exact timed.stamped accepted.1

theorem Flies.output_lt (flies : Flies before flight) (accepted : before.backend.refusals = []) :
    ∀ order ∈ before.outputs, order < before.scheduler.encodeOrder := by
  intro order isOutput
  obtain ⟨fate, member, same⟩ := List.mem_filterMap.mp isOutput
  obtain ⟨_, _, rfl⟩ := Option.map_eq_some_iff.mp same
  have listed := List.mem_map_of_mem (f := fun fate : Fate => fate.1.encodeOrder) member
  rw [flies.done accepted] at listed
  exact List.mem_range.mp listed

theorem Flies.count (flies : Flies before flight) (accepted : before.backend.refusals = []) :
    before.backend.requests.length = before.scheduler.encodeOrder + flight.length := by
  have length := congrArg List.length (flies.requested accepted)
  rwa [List.length_map, List.length_range] at length

theorem Timed.known (timed : Timed packets before flight) (flies : Flies before flight)
    (accepted : before.backend.refusals = []) :
    (∀ order ∈ before.outputs, order < before.times.length) ∧
      (before.outputs ≠ [] → before.clock.decodeDelay < before.times.length ∨
        before.scheduler.endOfStream = true) := by
  have asked := flies.count accepted
  have counted := timed.counted
  have early := flies.output_lt accepted
  refine ⟨fun order isOutput => ?_, fun some => ?_⟩
  · have less := early order isOutput
    omega
  · obtain ⟨order, isOutput⟩ := List.exists_mem_of_ne_nil _ some
    have less := early order isOutput
    by_contra neither
    rw [not_or, Nat.not_lt, Bool.not_eq_true] at neither
    rw [timed.quiet neither.1 neither.2, List.length_nil] at asked
    omega

theorem Timed.offset (timed : Timed packets before flight) (asked : before.backend.requests ≠ []) :
    before.clock.offset = lead before.times before.clock.decodeDelay := by
  have count := timed.counted
  have positive := List.length_pos_iff.mpr asked
  refine timed.settled ?_
  by_cases reached : before.clock.decodeDelay < before.times.length
  · exact Or.inl reached
  · refine Or.inr ⟨?_, fun none => ?_⟩
    · cases ended : before.scheduler.endOfStream with
      | true => rfl
      | false => exact absurd (timed.quiet (by omega) ended) asked
    · rw [none] at count
      simp only [List.length_nil] at count
      omega

/-- A picture has its timestamp from the ring as long as fewer frames came in after the one that is
read than the ring has slots. -/
theorem Timed.rawDts_eq (timed : Timed packets before flight) (asked : before.backend.requests ≠ [])
    {order : Nat} (inside : order < before.times.length)
    (near : before.times.length + before.clock.decodeDelay ≤
      order + 3 * before.scheduler.gop.bPerGroup + before.queue.capacity) (pts : Int) :
    before.clock.rawDts order pts before.caps.undelayed =
      wanted before.times before.clock.decodeDelay order := by
  obtain ⟨reorders, _, outputDelay, _, size, delayed⟩ := timed.geared
  rw [delayed]
  exact timed.tracks.rawDts_eq (by omega) (timed.offset asked) inside (by omega) pts

theorem Timed.front {front : Handle × B.recorded.Promise}
    (timed : Timed packets before (front :: flight)) (flies : Flies before (front :: flight))
    (accepted : before.backend.refusals = []) (pts : Int) :
    before.clock.rawDts before.scheduler.encodeOrder pts before.caps.undelayed =
      wanted before.times before.clock.decodeDelay before.scheduler.encodeOrder := by
  have flying := flies.count accepted
  have few := timed.few
  rw [List.length_cons] at flying few
  have asked : before.backend.requests ≠ [] := fun none => by simp [none] at flying
  have reorders := timed.geared.reorders
  have shallow := timed.geared.shallow
  have decodeDelay := timed.geared.decodeDelay
  have counted := timed.counted
  have waits := timed.waits
  -- at most `capacity` pictures are in flight, `b + 1` more wait, and the timestamp that is read is
  -- at most `b` frames old: together no more than the `3 * b + capacity` slots of the ring
  exact timed.rawDts_eq asked (by omega) (by omega) pts

theorem Flies.front_order {front : Handle × B.recorded.Promise}
    (flies : Flies before (front :: flight)) :
    front.2.1.encodeOrder = before.scheduler.encodeOrder := by
  have numbers := flies.numbered
  rw [List.map_cons, List.length_cons, List.range'_succ] at numbers
  exact (List.cons.inj numbers).1

theorem Flies.stamp {front : Handle × B.recorded.Promise} {delay : Nat}
    (flies : Flies before (front :: flight)) (accepted : before.backend.refusals = [])
    (stamped : Stamped before.times delay before.outputs before.clock.lastDts
      (packets.map CodedPicture.info)) {info : PacketInfo} {pts : Int}
    (raw : before.clock.rawDts front.2.1.encodeOrder pts before.caps.undelayed =
      wanted before.times delay front.2.1.encodeOrder)
    (order : info.encodeOrder = front.2.1.encodeOrder)
    (dts : info.dts = before.clock.due front.2.1.encodeOrder pts before.caps.undelayed)
    (bytes : List UInt8) :
    Stamped before.times delay (before.outputs ++ [front.2.1.encodeOrder])
      (some (before.clock.due front.2.1.encodeOrder pts before.caps.undelayed))
      ((packets ++ packetsOf (.ok (delivered info bytes))).map CodedPicture.info) := by
  have later := flies.output_lt accepted
  rw [← flies.front_order] at later
  rw [List.map_append]
  refine stamped.output later (due_eq stamped.last raw).symm fun packet given => ?_
  rw [packetsOf_delivered] at given
  obtain ⟨whole, isGiven, rfl⟩ := List.mem_map.mp given
  split at isGiven
  · cases isGiven
  · rw [List.mem_singleton.mp isGiven]
    exact ⟨order, dts⟩

theorem Timed.stamp {front : Handle × B.recorded.Promise}
    (timed : Timed packets before (front :: flight)) (flies : Flies before (front :: flight))
    (accepted : before.backend.refusals = []) {info : PacketInfo} {pts : Int}
    (order : info.encodeOrder = front.2.1.encodeOrder)
    (dts : info.dts = before.clock.due front.2.1.encodeOrder pts before.caps.undelayed)
    (bytes : List UInt8) :
    Stamped before.times before.clock.decodeDelay (before.outputs ++ [front.2.1.encodeOrder])
      (some (before.clock.due front.2.1.encodeOrder pts before.caps.undelayed))
      ((packets ++ packetsOf (.ok (delivered info bytes))).map CodedPicture.info) := by
  have raw := timed.front flies accepted pts
  rw [← flies.front_order] at raw
  exact flies.stamp accepted (timed.stamped accepted) raw order dts bytes

theorem Timed.move (timed : Timed packets before flight) (tells : Tells origin admitted before)
    (flies : Flies before flight) (move : Move before flight more after later) :
    Timed (packets ++ more) after later := by
  have setting := move.steady.toSetting
  cases move with
  | issue core free picks answers =>
      have counted := core.unissued_picked picks
      cases answers with
      | accepted asks answer =>
          obtain ⟨adds, _⟩ := Recorded.issue_adds answer
          rw [List.append_nil]
          refine timed.ask tells core picks adds setting rfl rfl (counted _) ?_ fun _ => rfl
          rw [List.length_append, List.length_singleton]
          exact free
  | refuse core picks answers =>
      have counted := core.unissued_picked picks
      cases answers with
      | @refused _ _ _ _ gone _ asks answer cleared =>
          rw [List.append_nil]
          refine timed.ask tells core picks
            (Recorded.refused_adds _ answer) setting rfl rfl ?_
            timed.few (by simp)
          rw [← counted (before.scheduler.encodeOrderFor flight.length)]
          exact congrArg (· + 1) (unissued_left advances_lose cleared)
  | @deliver _ front _ _ picture encodeOrder _ _ core found numbered delivers =>
      obtain ⟨same, foundAloft, _, _, info⟩ := flies.aloft front (by simp)
      cases find?_unique found foundAloft
      have order : front.2.1.encodeOrder = encodeOrder := by
        rw [← info, Picture.info, numbered]
        rfl
      cases delivers with
      | failed foundHere _ answer cleared =>
          refine timed.of_adds (Recorded.collected_adds _ answer) setting rfl rfl rfl
            (unissued_left advances_lose cleared) (Nat.le_succ _) fun accepted => ?_
          have nothing : [((front.2.1, none) : Fate)].filterMap
              (fun fate => fate.2.map fun _ => fate.1.encodeOrder) = [] := rfl
          rw [nothing, List.append_nil, packetsOf_error, List.append_nil]
          exact timed.stamped accepted
      | @coded _ _ _ bytes _ _ foundHere _ numberedHere answer cleared =>
          cases find?_unique found foundHere
          cases numbered.symm.trans numberedHere
          refine timed.of_adds (Recorded.collected_adds _ answer) setting rfl rfl rfl
            (unissued_left advances_handOver cleared) (Nat.le_succ _) fun accepted => ?_
          have next : [((front.2.1, some bytes) : Fate)].filterMap
              (fun fate => fate.2.map fun _ => fate.1.encodeOrder) = [front.2.1.encodeOrder] := rfl
          rw [next, ← order]
          exact timed.stamp flies accepted rfl rfl bytes
  | finish core ended issued finishes =>
      cases finishes with
      | @retired gone window pictures empty =>
          refine timed.of_adds (Recorded.freed_adds (B := B) gone) setting rfl rfl rfl ?_ le_rfl
            fun accepted => ?_
          · rw [unissued_of_issued issued]
            show window.pictures.countP (fun picture => !picture.issued) = 0
            rw [pictures_eq_nil empty]
            rfl
          · rw [List.filterMap_nil, List.append_nil, List.append_nil]
            exact timed.stamped accepted

theorem Timed.enter (timed : Timed packets before flight) (flies : Flies before flight)
    (goesOn : before.scheduler.endOfStream = false)
    (waits : unissuedIn before.window ≤ before.scheduler.gop.bPerGroup)
    {entry : Frame × Option B.Image} (adds : before.backend.Adds after.backend [entry] [] [] [])
    (setting : Setting before after)
    (clock : after.clock = before.clock.recordInput before.times.length entry.1.pts)
    (entered : after.scheduler.inputOrder = before.times.length + 1)
    (ended : after.scheduler.endOfStream = false)
    (unissued : unissuedIn after.window = unissuedIn before.window + 1) :
    Timed packets after flight := by
  have geared := timed.geared
  have timesEq : after.times = before.times ++ [entry.1.pts] := by
    rw [times, adds.allocations, List.map_append, List.map_singleton, times]
  have requestsEq := adds.requests
  rw [List.append_nil] at requestsEq
  have length : (before.times ++ [entry.1.pts]).length = before.times.length + 1 := by simp
  constructor
  case geared => exact geared.of_setting setting
  case entered => rw [timesEq, length, entered]
  case counted => rw [timesEq, length, requestsEq, unissued, timed.counted, Nat.add_assoc]
  case waits =>
    rw [unissued, setting.bPerGroup]
    omega
  case few =>
    rw [setting.capacity]
    exact timed.few
  case tracks =>
    rw [timesEq, clock]
    refine timed.tracks.recordInput ?_ ?_ _
    · rw [geared.outputDelay]
      exact geared.reorders
    · have size := geared.size
      have reorders := geared.reorders
      omega
  case settled =>
    rw [timesEq, clock, ended, length]
    intro reached
    refine timed.tracks.offset_recordInput (fun long => timed.settled (Or.inl long)) _ ?_
    exact reached.resolve_right (by simp)
  case quiet =>
    rw [timesEq, clock, requestsEq, length]
    intro early _
    exact timed.quiet (Nat.le_of_succ_le early) goesOn
  case stamped =>
    intro accepted
    rw [adds.refusals, List.append_nil] at accepted
    rw [timesEq, clock, outputs_of_adds adds, List.filterMap_nil, List.append_nil]
    obtain ⟨inside, settled⟩ := timed.known flies accepted
    refine (timed.stamped accepted).concat_time (fun order isOutput => ⟨?_, inside order isOutput⟩) _
    exact (settled (List.ne_nil_of_mem isOutput)).resolve_right (by simp [goesOn])

theorem Timed.frame (timed : Timed packets before flight) (flies : Flies before flight)
    (goesOn : before.scheduler.endOfStream = false)
    (waits : unissuedIn before.window ≤ before.scheduler.gop.bPerGroup) {frame : Frame}
    {image : B.recorded.Image} {middle : Encoder B.recorded} (window : middle.window = before.window)
    (scheduler : middle.scheduler = before.scheduler) (clock : middle.clock = before.clock)
    (setting : Setting before (addPicture (B := B.recorded) frame image middle))
    (adds : before.backend.Adds middle.backend [(frame, some image)] [] [] []) :
    Timed packets (addPicture (B := B.recorded) frame image middle) flight := by
  refine timed.enter flies goesOn waits adds setting ?_ ?_ ?_ ?_
  · rw [← timed.entered, ← scheduler, ← clock]
    rfl
  · rw [← timed.entered, ← scheduler]
    rfl
  · rw [← scheduler] at goesOn
    exact goesOn
  · have fresh : (Picture.ofFrame middle.scheduler.inputOrder frame
        (middle.scheduler.inputOrder == 0 || frame.forceKey) image).issued = false := rfl
    rw [← window]
    exact unissued_enter (B := B.recorded) fresh middle.window

theorem Tells.times_eq (tells : Tells origin admitted encoder) :
    encoder.times = admitted.map fun entry => entry.1.pts := by
  rw [times, tells.allocated, List.map_map]
  rfl

theorem Chronicle.last_time (chronicle : Chronicle origin admitted packets before flight)
    (none : before.backend.requests = [])
    (goesOn : before.scheduler.endOfStream = false) {tail : Picture B.recorded.Image}
    (last : before.window.pictures.getLast? = some tail) :
    before.times.getLast? = some tail.pts := by
  have stands := chronicle.tells.stands
  rw [none] at stands
  cases stands with
  | through _ ended => simp [goesOn] at ended
  | @within next laid fresh due plot =>
      -- nothing was laid out yet, so the window holds exactly the frames from `next` on
      have handles := plot.arranged.handles
      rw [plot.begun rfl, List.nil_append] at handles
      rw [Window.pictures, List.getLast?_map, Option.map_eq_some_iff] at last
      obtain ⟨⟨handle, picture⟩, isLast, rfl⟩ := last
      obtain ⟨front, entriesEq⟩ := List.getLast?_eq_some_iff.mp isLast
      have found : before.window.find? handle = some picture :=
        find?_of_mem_entries (by simp [entriesEq])
      have split : fresh = front.map Prod.fst ++ [handle] := by
        rw [← handles, Window.handles_eq, entriesEq, List.map_append]
        rfl
      have counted := plot.counted
      have numbered := plot.numbered
      rw [split, List.length_append, List.length_map, List.length_singleton] at counted numbered
      rw [List.map_append, List.map_singleton, List.range'_concat, Nat.one_mul] at numbered
      have order := List.append_inj_right' numbered rfl
      rw [List.cons.injEq, orderOf_of_find? found] at order
      rw [length_cuesOf, List.length_map] at counted
      obtain ⟨entry, listed, shown⟩ := chronicle.films.shows handle picture found
      rw [order.1] at listed
      have place : admitted.length - 1 = next + front.length := by omega
      rw [chronicle.tells.times_eq, List.getLast?_map, List.getLast?_eq_getElem?, place, listed]
      exact congrArg some shown.pts.symm

theorem endStream_eq (clock : DecodeClock) (count : Nat) (pts : Int) :
    clock.endStream count pts = { clock with offset := (clock.endStream count pts).offset } := by
  rw [endStream]
  split <;> rfl

theorem Timed.settles (timed : Timed packets before flight)
    (chronicle : Chronicle origin admitted packets before flight)
    (goesOn : before.scheduler.endOfStream = false) :
    ∃ offset, before.signalEnd.clock = { before.clock with offset } ∧
      (before.times ≠ [] → offset = lead before.times before.clock.decodeDelay) := by
  have settled := fun long => timed.settled (Or.inl long)
  have early : ¬before.clock.decodeDelay < before.times.length → before.backend.requests = [] :=
    fun short => timed.quiet (Nat.not_lt.mp short) goesOn
  unfold signalEnd
  cases lastEq : before.window.pictures.getLast? with
  | some tail =>
      refine ⟨_, endStream_eq _ _ _, fun _ => ?_⟩
      rw [timed.entered]
      refine timed.tracks.offset_endStream settled ?_
      by_cases long : before.clock.decodeDelay < before.times.length
      · exact Or.inl long
      · exact Or.inr (chronicle.last_time (early long) goesOn lastEq)
  | none =>
      refine ⟨before.clock.offset, rfl, fun some => settled ?_⟩
      by_contra short
      have counted := timed.counted
      have nothing : unissuedIn before.window = 0 := by
        rw [unissuedIn, List.getLast?_eq_none_iff.mp lastEq]
        rfl
      rw [early short, nothing] at counted
      exact some (List.length_eq_zero_iff.mp counted)

theorem Timed.ending (timed : Timed packets before flight)
    (chronicle : Chronicle origin admitted packets before flight)
    (goesOn : before.scheduler.endOfStream = false) :
    Timed packets before.signalEnd flight := by
  obtain ⟨offset, clockEq, settled⟩ := timed.settles chronicle goesOn
  constructor
  case geared => exact timed.geared.of_setting (signalEnd_setting before)
  case entered => exact timed.entered
  case counted => exact timed.counted
  case waits => exact timed.waits
  case few => exact timed.few
  case tracks =>
    rw [clockEq]
    exact ⟨timed.tracks.recorded, timed.tracks.firstPts⟩
  case settled =>
    rw [clockEq]
    rintro (long | ⟨_, some⟩)
    · refine settled fun none => ?_
      have same : before.signalEnd.times = before.times := rfl
      rw [same, none] at long
      cases long
    · exact settled some
  case quiet => exact fun _ goesOn => by cases goesOn
  case stamped =>
    rw [clockEq]
    exact timed.stamped

theorem Timed.moves (timed : Timed packets before flight)
    (chronicle : Chronicle origin admitted packets before flight)
    (moves : Moves before flight more after later) : Timed (packets ++ more) after later := by
  induction moves with
  | none => rwa [List.append_nil]
  | next moves move ih =>
      rw [← List.append_assoc]
      have kept := chronicle.moves moves
      exact ih.move kept.tells kept.flies move

theorem Timed.strides (timed : Timed packets before before.queue.promises) (settles : before.Settles)
    (chronicle : Chronicle origin admitted packets before before.queue.promises)
    (sound : before.Sound ledger) {middle : Encoder B.recorded} (entry : Entry before middle)
    (moves : Moves middle middle.queue.promises more after after.queue.promises) :
    Timed (packets ++ more) after after.queue.promises := by
  rw [entry.queue] at moves
  cases entry with
  | nothing => exact timed.moves chronicle moves
  | @frame frame rest image cropWarned roiWarned waiting answer =>
      have goesOn := (sound.running_of_waiting waiting).2
      have adds := Recorded.allocated_adds answer
      refine Timed.moves ?_ (chronicle.frame sound waiting ?_ ?_ ?_ adds) moves
      · exact timed.frame chronicle.flies goesOn settles.few rfl rfl rfl
          (Entry.frame waiting answer).steady.toSetting adds
      all_goals rfl
  | ending waiting draining goesOn =>
      exact Timed.moves (timed.ending chronicle goesOn) (chronicle.ending goesOn) moves

structure Punctual (packets : List CodedPicture) (encoder : Encoder B.recorded) : Prop where
  timed : Timed packets encoder encoder.queue.promises
  settles : encoder.Settles

theorem Timed.congr (timed : Timed packets before flight)
    (adds : before.backend.Adds after.backend [] [] [] []) (caps : after.caps = before.caps)
    (mode : after.mode = before.mode) (window : after.window = before.window)
    (scheduler : after.scheduler = before.scheduler) (clock : after.clock = before.clock)
    (queue : after.queue = before.queue) : Timed packets after flight := by
  have setting : Setting before after := by
    constructor <;> simp only [caps, mode, scheduler, clock, queue]
  rw [← List.append_nil packets]
  refine timed.of_adds adds setting clock (by rw [scheduler]) (by rw [scheduler])
    (by rw [window]) le_rfl fun accepted => ?_
  rw [List.filterMap_nil, List.append_nil, List.append_nil]
  exact timed.stamped accepted

theorem Timed.start {start : Recorded B} (nothing : start.calls = []) {config : Config} {gop : Gop}
    (valid : config.Valid) (made : Gop.ofConfig? config (B.recorded.capabilities start) = some gop)
    (mode : BlockingMode) (reorders : 0 < gop.bPerGroup)
    (delayed : (B.recorded.capabilities start).undelayed = false) :
    Timed [] (opened (B := B.recorded) start gop config mode) [] := by
  obtain ⟨shallow, bounded⟩ := Gop.bounds_of_ofConfig? made
  have timesEq : (opened (B := B.recorded) start gop config mode).times = [] := by
    simp [times, opened, Recorded.allocations, nothing]
  have requestsEq : start.requests = [] := by simp [Recorded.requests, nothing]
  have fatesEq : start.fates = [] := by simp [Recorded.fates, Recorded.endings, nothing]
  constructor
  case geared =>
    refine ⟨reorders, shallow, rfl, rfl, ?_, delayed⟩
    have frames := valid.maxBFrames_le
    have depth := valid.asyncDepth_le
    dsimp only [maxReorderDelay, maxAsyncDepth] at frames depth
    dsimp only [opened, Scheduler.ofGop, Gop.outputDelay]
    rw [length_ring_start, ringSize, maxReorderDelay, maxAsyncDepth]
    omega
  case entered =>
    rw [timesEq]
    rfl
  case counted =>
    rw [timesEq]
    dsimp only [opened]
    rw [requestsEq]
    rfl
  case waits => exact Nat.zero_le _
  case few => exact Nat.zero_le _
  case tracks =>
    rw [timesEq]
    exact ⟨by simp, by simp⟩
  case settled =>
    rw [timesEq]
    simp
  case quiet => exact fun _ _ => requestsEq
  case stamped =>
    intro _
    rw [timesEq, outputs]
    dsimp only [opened]
    rw [fatesEq]
    exact ⟨rfl, by simp⟩

/-! Courses. -/

section

variable {opening : Encoder B.recorded} {accepted : List Frame}

theorem Course.timed (course : Course SameCalls opening accepted packets encoder)
    (starts : Chronicle origin [] [] opening opening.queue.promises) (empty : opening.waiting = [])
    (settles : opening.Settles) (timed : Timed [] opening opening.queue.promises)
    (alive : encoder.failed = false) : Timed packets encoder encoder.queue.promises := by
  induction course with
  | start => exact timed
  | step course sound strode ih =>
      cases strode with
      | dead failed =>
          rw [failed] at alive
          cases alive
      | fatal => cases alive
      | alive aliveBefore strides survives =>
          obtain ⟨_, chronicle, _⟩ := course.chronicle starts empty aliveBefore
          cases strides with
          | lost _ failed => cases survives _ failed
          | went entry picks _ last =>
              exact (ih aliveBefore).strides (course.settles settles) chronicle sound entry
                (picks.last last)
  | accept _ frame aliveBefore _ ih =>
      exact (ih aliveBefore).congr (.refl _) rfl rfl rfl rfl rfl rfl
  | drain _ ih => exact (ih alive).congr (.refl _) rfl rfl rfl rfl rfl rfl
  | code _ _ ih => exact (ih alive).congr (.refl _) rfl rfl rfl rfl rfl rfl
  | abandon _ failed =>
      rw [failed] at alive
      cases alive
  | progress _ moved ih => exact (ih alive).congr (adds_of_calls moved) rfl rfl rfl rfl rfl rfl

end

theorem Flies.outputs_increase (flies : Flies encoder flight)
    (accepted : encoder.backend.refusals = []) : encoder.outputs.Pairwise (· < ·) := by
  have sorted : (encoder.backend.fates.map fun fate => fate.1.encodeOrder).Pairwise (· < ·) := by
    rw [flies.done accepted]
    exact List.pairwise_lt_range
  rw [List.pairwise_map] at sorted
  refine List.pairwise_filterMap.mpr (sorted.imp fun earlier _ first _ second => ?_)
  obtain ⟨_, _, rfl⟩ := Option.map_eq_some_iff.mp first
  obtain ⟨_, _, rfl⟩ := Option.map_eq_some_iff.mp second
  exact earlier

/-! What a step outputs. -/

theorem Entry.adds (entry : Entry before after) :
    ∃ allocated, before.backend.Adds after.backend allocated [] [] [] := by
  cases entry with
  | nothing => exact ⟨_, .refl _⟩
  | frame _ answer => exact ⟨_, Recorded.allocated_adds answer⟩
  | ending => exact ⟨_, .refl _⟩

theorem Move.adds (move : Move before flight more after later) :
    ∃ requested refused ended, before.backend.Adds after.backend [] requested refused ended ∧
      ended.length ≤ 1 := by
  cases move with
  | issue _ _ _ answers =>
      cases answers with
      | accepted asks answer => exact ⟨_, _, _, (Recorded.issue_adds answer).1, Nat.zero_le _⟩
  | refuse _ _ answers =>
      cases answers with
      | refused asks answer => exact ⟨_, _, _, Recorded.refused_adds _ answer, le_rfl⟩
  | deliver _ _ _ delivers =>
      cases delivers with
      | failed _ _ answer => exact ⟨_, _, _, Recorded.collected_adds _ answer, le_rfl⟩
      | coded _ _ _ answer => exact ⟨_, _, _, Recorded.collected_adds _ answer, le_rfl⟩
  | finish _ _ _ finishes =>
      cases finishes with
      | @retired gone => exact ⟨_, _, _, Recorded.freed_adds (B := B) gone, Nat.zero_le _⟩

theorem Moves.adds (moves : Moves before flight more after later) :
    ∃ requested refused ended, before.backend.Adds after.backend [] requested refused ended := by
  induction moves with
  | none => exact ⟨_, _, _, .refl _⟩
  | next _ move ih =>
      obtain ⟨_, _, _, sofar⟩ := ih
      obtain ⟨_, _, _, adds, _⟩ := move.adds
      exact ⟨_, _, _, sofar.trans adds⟩

theorem Last.adds (last : Last before flight more after later) :
    ∃ requested refused ended, before.backend.Adds after.backend [] requested refused ended ∧
      ended.length ≤ 1 := by
  cases last with
  | none => exact ⟨_, _, _, .refl _, Nat.zero_le _⟩
  | move move => exact move.adds

theorem Strode.outputs {result : Except EncodeError Step} (strode : Strode before result after)
    (sound : before.Sound ledger)
    (chronicle : Chronicle origin admitted packets before before.queue.promises)
    (alive : after.failed = false) (accepted : after.backend.refusals = []) :
    after.outputs = before.outputs ∨ ∃ order, after.outputs = before.outputs ++ [order] := by
  cases strode with
  | dead => exact Or.inl rfl
  | fatal => cases alive
  | alive _ strides survives =>
      cases strides with
      | lost _ failed => cases survives _ failed
      | @went middle picked left entry picks calm last =>
          obtain ⟨_, entered⟩ := entry.adds
          obtain ⟨_, _, ended, picking⟩ := picks.adds
          obtain ⟨_, _, fates, lastAdds, few⟩ := last.adds
          have adds := entered.trans picking
          rw [lastAdds.refusals, List.append_eq_nil_iff] at accepted
          have acceptedBefore := accepted.1
          rw [adds.refusals, List.append_eq_nil_iff] at acceptedBefore
          obtain ⟨_, chroniclePicked, _⟩ := chronicle.strides sound entry picks
          -- nothing ended before the last move: as many pictures as then were done before the step
          have none : ended = [] := by
            have done := congrArg List.length (chronicle.flies.done acceptedBefore.1)
            have donePicked := congrArg List.length (chroniclePicked.flies.done accepted.1)
            rw [calm, adds.fates, List.nil_append] at donePicked
            simp only [List.length_map, List.length_append, List.length_range] at done donePicked
            exact List.length_eq_zero_iff.mp (by omega)
          subst none
          have same := outputs_of_adds adds
          rw [List.append_nil, List.filterMap_nil, List.append_nil] at same
          rw [outputs_of_adds lastAdds, same]
          match fates, few with
          | [], _ => exact Or.inl (List.append_nil _)
          | [(picture, none)], _ => exact Or.inl (List.append_nil _)
          | [(picture, some _)], _ => exact Or.inr ⟨picture.encodeOrder, rfl⟩

variable {start : Recorded B} {mode : BlockingMode}

theorem Reachable.punctual (nothing : start.calls = [])
    (reachable : Reachable (B := B.recorded) start SameCalls encoder)
    (reorders : 0 < encoder.scheduler.gop.bPerGroup) (delayed : encoder.caps.undelayed = false)
    (paced : encoder.mode = .blocking ∨ encoder.caps.pipelined = false)
    (stepped : (step mode encoder).state = after) (alive : after.failed = false)
    (accepted : after.backend.refusals = []) :
    ∃ packets, Punctual (packets ++ packetsOf (step mode encoder).result) after ∧
      Flies after after.queue.promises ∧
      (after.outputs = encoder.outputs ∨ ∃ order, after.outputs = encoder.outputs ++ [order]) := by
  obtain ⟨config, opening, gop, _, packets, valid, made, course⟩ := reachable.course
  obtain ⟨result, last, runs, _, _, _, strode⟩ := step_ok reachable.invariant mode
  rw [runs.state_eq] at stepped
  subst stepped
  rw [runs.result_eq]
  have setting := course.setting
  have courseAfter := course.step reachable.invariant strode
  have starts := Chronicle.start nothing valid made opening
  rw [setting.bPerGroup] at reorders
  rw [setting.caps] at delayed
  rw [setting.mode, setting.caps] at paced
  have settles := settles_opened valid made paced
  have timed := Timed.start nothing valid made opening reorders delayed
  obtain ⟨_, chronicle, _⟩ := course.chronicle starts rfl (strode.alive_before alive)
  obtain ⟨_, chronicleAfter, _⟩ := courseAfter.chronicle starts rfl alive
  exact ⟨packets, ⟨courseAfter.timed starts rfl settles timed alive, courseAfter.settles settles⟩,
    chronicleAfter.flies, strode.outputs reachable.invariant chronicle alive accepted⟩

theorem Timed.last_dated (timed : Timed packets encoder flight) (flies : Flies encoder flight)
    (accepted : encoder.backend.refusals = []) {order : Nat}
    (last : encoder.outputs.getLast? = some order) : ∃ dts, encoder.clock.lastDts = some dts ∧
      Dated encoder.times encoder.clock.decodeDelay encoder.outputs order dts := by
  have greatest := (timed.stamped accepted).last
  obtain ⟨front, split⟩ := List.getLast?_eq_some_iff.mp last
  cases lastDts : encoder.clock.lastDts with
  | none =>
      rw [lastDts, split, List.map_append, List.map_singleton, max?_concat] at greatest
      cases greatest
  | some dts =>
      rw [lastDts] at greatest
      refine ⟨dts, rfl, dated_of_greatest greatest.symm (by simp [split]) fun other isOutput => ?_⟩
      have increase := flies.outputs_increase accepted
      rw [split] at isOutput increase
      rcases List.mem_append.mp isOutput with earlier | isLast
      · exact ((List.pairwise_append.mp increase).2.2 other earlier order (by simp)).le
      · rw [List.mem_singleton.mp isLast]

/-- Decode timestamps are exact. In a session that waits for its pictures, or has one at a time, a step
outputs at most one picture. The last timestamp given out belongs to the last picture that was output,
and is the greatest of those that the pictures output so far wanted; and so is the timestamp of a
packet. All frames that this speaks of had come in by then: no timestamp is read from the ring before
it is written or after it is overwritten. -/
theorem Reachable.decode_times (nothing : start.calls = [])
    (reachable : Reachable (B := B.recorded) start SameCalls encoder)
    (reorders : 0 < encoder.scheduler.gop.bPerGroup) (delayed : encoder.caps.undelayed = false)
    (paced : encoder.mode = .blocking ∨ encoder.caps.pipelined = false)
    (stepped : (step mode encoder).state = after) (alive : after.failed = false)
    (accepted : after.backend.refusals = []) :
    (∀ order ∈ after.outputs, order < after.times.length) ∧
      (after.outputs ≠ [] → after.scheduler.gop.decodeDelay < after.times.length ∨
        after.scheduler.endOfStream = true) ∧
      (after.outputs = encoder.outputs ∨ ∃ order, after.outputs = encoder.outputs ++ [order]) ∧
      (∀ order, after.outputs.getLast? = some order → ∃ dts, after.clock.lastDts = some dts ∧
        Dated after.times after.scheduler.gop.decodeDelay after.outputs order dts) ∧
      ∀ packet, (step mode encoder).result = .ok (.packet packet) →
        Dated after.times after.scheduler.gop.decodeDelay after.outputs packet.info.encodeOrder
          packet.info.dts := by
  obtain ⟨packets, punctual, flies, single⟩ :=
    reachable.punctual nothing reorders delayed paced stepped alive accepted
  have timed := punctual.timed
  obtain ⟨inside, settled⟩ := timed.known flies accepted
  have delay : after.scheduler.gop.decodeDelay = after.clock.decodeDelay :=
    timed.geared.decodeDelay.symm
  rw [delay]
  refine ⟨inside, settled, single, fun order last => timed.last_dated flies accepted last,
    fun packet gave => ?_⟩
  refine (timed.stamped accepted).dated packet.info ?_
  rw [gave]
  exact List.mem_map_of_mem (List.mem_append_right _ (List.mem_singleton_self _))

/-- Frames that do not come in the order of their timestamps. The packet after the fourth would be
stamped earlier than the one before it. -/
def shuffled : Encoder Backend.simulated.recorded :=
  (performAll (([0, 10, 20, 5, 30, 40, 50, 60].map fun pts => .encode { pts }) ++
    List.replicate 4 .receive) (onDevice (Device.create .manual none) {} .blocking)).2

theorem shuffled_reachable :
    Reachable (B := Backend.simulated.recorded) { inner := Device.create .manual none } SameCalls
      shuffled :=
  (Calls.none.performAll _).reachable (.created {} .blocking rfl)

theorem decode_times_shuffled : ∃ after : Encoder Backend.simulated.recorded,
    (step .blocking shuffled).state = after ∧
      after.outputs = [0, 1, 2, 3, 4] ∧ after.clock.lastDts = some 20 ∧
      wanted after.times after.scheduler.gop.decodeDelay 4 = 5 ∧
      Dated after.times after.scheduler.gop.decodeDelay after.outputs 4 20 := by
  have stepped : (step .blocking shuffled).state = (step .blocking shuffled).state := rfl
  have last : (step .blocking shuffled).state.outputs = [0, 1, 2, 3, 4] := by decide +kernel
  have given : (step .blocking shuffled).state.clock.lastDts = some 20 := by decide +kernel
  obtain ⟨_, _, _, dated, _⟩ := Reachable.decode_times rfl shuffled_reachable (by decide +kernel)
    (by decide +kernel) (.inl (by decide +kernel)) stepped (by decide +kernel) (by decide +kernel)
  obtain ⟨dts, same, isDated⟩ := dated 4 (by rw [last]; rfl)
  rw [given] at same
  cases same
  exact ⟨_, stepped, last, given, by decide +kernel, isDated⟩

end Encoder

end VideoSchedule

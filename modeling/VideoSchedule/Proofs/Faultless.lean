import VideoSchedule.Backend.Simulated
import VideoSchedule.Proofs.Conformance
import VideoSchedule.Proofs.Draining
import VideoSchedule.Proofs.Timestamps
import VideoSchedule.Proofs.Worker

/-!
Sessions on a device for which no failure was planned. The device takes every request that it can
encode, and an encoder makes no others; it hands out the packet that describes the request, however
long that takes. So no step fails, and what became of the pictures follows from the requests.
-/

namespace VideoSchedule

open Recorded

structure Device.Sure (device : Device) : Prop where
  alloc : device.failAlloc = none
  issue : device.failIssue = none
  output : device.failOutput = none
  nonempty : device.emptyOutput = none
  worker : device.worker.Free

/-- What a promise will bring. -/
def Device.Owes (device : Device) (packet : Packet) : DevicePromise → Prop
  | .ready given => given = packet
  | .manual given => given = packet
  | .threaded job => (job, .ok packet) ∈ device.worker.outcomes

/-- A request that a device with these capabilities takes, and can describe in its bytes. -/
structure Request.Fits {ι : Type} (caps : Capabilities) (request : Request ι) : Prop where
  past : request.past.length ≤ caps.maxPastRefs
  future : request.future.length ≤ caps.maxFutureRefs
  writable : (Packet.ofRequest request).Writable

namespace Device

variable {device after : Device} {packet : Packet} {promise : DevicePromise} {request : Request Nat}

theorem sure_create (completion : Completion) (caps : Option Capabilities) :
    (create completion caps).Sure := ⟨rfl, rfl, rfl, rfl, Worker.free_new⟩

theorem Owes.of_worker (owes : device.Owes packet promise)
    (same : ∀ outcome ∈ device.worker.outcomes, outcome ∈ after.worker.outcomes) :
    after.Owes packet promise := by
  cases promise with
  | ready => exact owes
  | manual => exact owes
  | threaded job => exact same _ owes

theorem Sure.refusal?_eq_none (sure : device.Sure) (fits : request.Fits device.caps) :
    device.refusal? request = none := by
  have few : ¬(device.caps.maxPastRefs < request.past.length ∨
      device.caps.maxFutureRefs < request.future.length) := by
    have past := fits.past
    have future := fits.future
    omega
  simp only [refusal?, few, if_false, sure.issue]

theorem Sure.start (sure : device.Sure) (packet : Packet) :
    (device.start packet).2.Sure ∧ (device.start packet).2.Owes packet (device.start packet).1 ∧
      ∀ outcome ∈ device.worker.outcomes, outcome ∈ (device.start packet).2.worker.outcomes := by
  unfold Device.start
  cases device.completion with
  | immediate => exact ⟨sure, rfl, fun _ => id⟩
  | manual => exact ⟨sure, rfl, fun _ => id⟩
  | threaded =>
      refine ⟨⟨sure.alloc, sure.issue, sure.output, sure.nonempty, sure.worker.submit rfl⟩, ?_, ?_⟩
      · show _ ∈ (device.worker.submit _).2.outcomes
        rw [Worker.outcomes_submit]
        exact List.mem_append_right _ (List.mem_singleton_self _)
      · intro outcome member
        show _ ∈ (device.worker.submit _).2.outcomes
        rw [Worker.outcomes_submit]
        exact List.mem_append_left _ member

theorem Sure.sync (sure : device.Sure) (owes : device.Owes packet promise) :
    (device.sync promise).1 = .ok packet ∧ (device.sync promise).2.Sure ∧
      ∀ outcome ∈ device.worker.outcomes, outcome ∈ (device.sync promise).2.worker.outcomes := by
  cases promise with
  | ready given =>
      cases owes
      exact ⟨rfl, sure, fun _ => id⟩
  | manual given =>
      cases owes
      exact ⟨rfl, ⟨sure.alloc, sure.issue, sure.output, sure.nonempty, sure.worker⟩, fun _ => id⟩
  | threaded job =>
      obtain ⟨answer, free, same⟩ := sure.worker.sync owes
      refine ⟨?_, ⟨sure.alloc, sure.issue, sure.output, sure.nonempty, free⟩,
        fun outcome member => same.mem_iff.mpr member⟩
      simp only [Device.sync, answer, Option.getD_some]

end Device

/-! Records of such a device. -/

structure Recorded.Faithful (state : Recorded Backend.simulated) : Prop where
  sure : state.inner.Sure
  issued : state.inner.issued.toList = state.acceptances.map Packet.ofRequest
  freed : state.inner.freed.toList = (freedImages state.calls).reverse

structure Recorded.Onward (before after : Recorded Backend.simulated) : Prop where
  faithful : after.Faithful
  caps : after.inner.caps = before.inner.caps
  owes : ∀ packet promise, before.inner.Owes packet promise → after.inner.Owes packet promise

namespace Recorded

variable {before middle after state : Recorded Backend.simulated} {packet : Packet}
  {request : Request Nat}

theorem Onward.refl (faithful : state.Faithful) : Onward state state :=
  ⟨faithful, rfl, fun _ _ => id⟩

theorem Onward.trans (first : Onward before middle) (second : Onward middle after) :
    Onward before after :=
  ⟨second.faithful, second.caps.trans first.caps,
    fun packet promise owes => second.owes packet promise (first.owes packet promise owes)⟩

def Uncounted : BackendCall Nat → Prop
  | .issue _ none => False
  | .free _ => False
  | _ => True

theorem Faithful.record (faithful : state.Faithful) {inner : Device} (sure : inner.Sure)
    (caps : inner.caps = state.inner.caps)
    (worker : ∀ outcome ∈ state.inner.worker.outcomes, outcome ∈ inner.worker.outcomes)
    (issued : inner.issued = state.inner.issued) (freed : inner.freed = state.inner.freed)
    {call : BackendCall Nat} (uncounted : Uncounted call) :
    Onward state (state.record (B := Backend.simulated) call inner) := by
  refine ⟨⟨sure, ?_, ?_⟩, caps, fun _ _ owes => owes.of_worker worker⟩
  · have same : (state.record (B := Backend.simulated) call inner).acceptances = state.acceptances := by
      refine (filterMap_record ..).trans ?_
      cases call with
      | issue request failure =>
          cases failure with
          | none => exact uncounted.elim
          | some => exact List.append_nil _
      | free => exact uncounted.elim
      | alloc | sync | output => exact List.append_nil _
    rw [same, ← faithful.issued]
    exact congrArg Array.toList issued
  · have same : freedImages (call :: state.calls) = freedImages state.calls := by
      cases call with
      | free image => exact uncounted.elim
      | alloc | issue | sync | output => rfl
    refine (congrArg Array.toList freed).trans (faithful.freed.trans ?_)
    exact congrArg List.reverse same.symm

theorem Faithful.alloc (faithful : state.Faithful) (frame : Frame) :
    (∃ image, (Backend.simulated.recorded.alloc frame state).1 = .ok image) ∧
      Onward state (Backend.simulated.recorded.alloc frame state).2 := by
  have sure := faithful.sure
  have allocated : state.inner.alloc =
      (.ok state.inner.allocated, { state.inner with allocated := state.inner.allocated + 1 }) := by
    simp [Device.alloc, sure.alloc]
  simp only [allocated]
  refine ⟨⟨_, rfl⟩, ?_⟩
  apply faithful.record
  · exact ⟨sure.alloc, sure.issue, sure.output, sure.nonempty, sure.worker⟩
  · rfl
  · exact fun _ => id
  · rfl
  · rfl
  · trivial

theorem Faithful.issue (faithful : state.Faithful) (fits : request.Fits state.inner.caps) :
    ∃ promise, (Backend.simulated.recorded.issue request state).1 = .ok promise ∧
      Onward state (Backend.simulated.recorded.issue request state).2 ∧
      Device.Owes (Recorded.inner (Backend.simulated.recorded.issue request state).2)
        (Packet.ofRequest request) promise.2 := by
  have sure := faithful.sure
  obtain ⟨started, owes, kept⟩ := sure.start (Packet.ofRequest request)
  have accepted := @acceptances_accepted Backend.simulated state request
  simp only [Device.issue, sure.refusal?_eq_none fits, Except.map] at accepted ⊢
  refine ⟨_, rfl, ⟨⟨⟨started.alloc, started.issue, started.output, started.nonempty,
    started.worker⟩, ?_, ?_⟩, ?_, fun _ _ owed => owed.of_worker kept⟩, owes.of_worker fun _ => id⟩
  · rw [accepted rfl, List.map_append]
    show (state.inner.issued.push (Packet.ofRequest request)).toList = _
    rw [Array.toList_push, faithful.issued]
    rfl
  · have same : (state.inner.start (Packet.ofRequest request)).2.freed = state.inner.freed := by
      unfold Device.start
      cases state.inner.completion <;> rfl
    exact (congrArg Array.toList same).trans faithful.freed
  · show (state.inner.start (Packet.ofRequest request)).2.caps = state.inner.caps
    unfold Device.start
    cases state.inner.completion <;> rfl

theorem Faithful.sync (faithful : state.Faithful) {promise : PictureInfo × DevicePromise}
    (owes : state.inner.Owes packet promise.2) :
    (Backend.simulated.recorded.sync promise state).1 = .ok packet ∧
      Onward state (Backend.simulated.recorded.sync promise state).2 := by
  obtain ⟨answer, sure, kept⟩ := faithful.sure.sync owes
  have same : (state.inner.sync promise.2).2.caps = state.inner.caps ∧
      (state.inner.sync promise.2).2.issued = state.inner.issued ∧
      (state.inner.sync promise.2).2.freed = state.inner.freed := by
    cases promise.2 <;> exact ⟨rfl, rfl, rfl⟩
  exact ⟨answer, faithful.record sure same.1 kept same.2.1 same.2.2 trivial⟩

theorem Faithful.output (faithful : state.Faithful) (image : Nat) (packet : Packet) :
    (Backend.simulated.recorded.output image packet state).1.toOption = packet.toBytes.toOption ∧
      Onward state (Backend.simulated.recorded.output image packet state).2 := by
  have sure := faithful.sure
  simp only [Device.output, sure.output, sure.nonempty, reduceCtorEq, if_false]
  refine ⟨by cases packet.toBytes <;> rfl, ?_⟩
  apply faithful.record
  · exact ⟨sure.alloc, sure.issue, rfl, rfl, sure.worker⟩
  · rfl
  · exact fun _ => id
  · rfl
  · rfl
  · trivial

theorem Faithful.free (faithful : state.Faithful) (image : Nat) :
    Onward state (Backend.simulated.recorded.free image state) := by
  have sure := faithful.sure
  refine ⟨⟨⟨sure.alloc, sure.issue, sure.output, sure.nonempty, sure.worker⟩, ?_, ?_⟩, rfl,
    fun _ _ owes => owes.of_worker fun _ => id⟩
  · have same : Recorded.acceptances (Backend.simulated.recorded.free image state) =
        state.acceptances := (filterMap_record ..).trans (List.append_nil _)
    rw [same]
    exact faithful.issued
  · show (state.inner.freed.push image).toList = (freedImages (.free image :: state.calls)).reverse
    rw [Array.toList_push, faithful.freed, freedImages, List.filterMap_cons, List.reverse_cons]

theorem Faithful.giveBack (faithful : state.Faithful) (picture : Picture Nat) :
    Onward state (Encoder.giveBack (B := Backend.simulated.recorded) picture state) := by
  rw [Encoder.giveBack]
  split
  next image _ => exact faithful.free image
  next => exact .refl faithful

theorem Faithful.freed_all (faithful : state.Faithful) (gone : List (Picture Nat)) :
    Onward state (Encoder.freed (B := Backend.simulated.recorded) state gone) := by
  induction gone generalizing state with
  | nil => exact .refl faithful
  | cons picture rest ih =>
      have first := faithful.giveBack picture
      exact first.trans (ih first.faithful)

theorem Faithful.collected (faithful : state.Faithful) {promise : PictureInfo × DevicePromise}
    (owes : state.inner.Owes packet promise.2) (image : Nat) :
    (Encoder.collected (B := Backend.simulated.recorded) image
        (Backend.simulated.recorded.sync promise state).1
        (Backend.simulated.recorded.sync promise state).2).1.toOption = packet.toBytes.toOption ∧
      Onward state (Encoder.collected (B := Backend.simulated.recorded) image
        (Backend.simulated.recorded.sync promise state).1
        (Backend.simulated.recorded.sync promise state).2).2 := by
  obtain ⟨answer, synced⟩ := faithful.sync owes
  rw [answer]
  obtain ⟨bytes, output⟩ := synced.faithful.output image packet
  exact ⟨bytes, synced.trans output⟩

end Recorded

def Request.fate {ι : Type} (request : Request ι) : Fate :=
  (request.picture, (Packet.ofRequest request).toBytes.toOption)

namespace Encoder

open VideoSchedule.Action

variable {before middle after encoder : Encoder Backend.simulated.recorded}
  {flight later : List (Handle × Backend.simulated.recorded.Promise)}
  {packets more : List CodedPicture} {ledger : Ledger Backend.simulated.recorded}
  {accepted frames : List Frame} {gop : Gop} {config : Config}

structure Due (device : Device) (request : Request Nat)
    (entry : Handle × Backend.simulated.recorded.Promise) : Prop where
  picture : entry.2.1 = request.picture
  owes : device.Owes (Packet.ofRequest request) entry.2.2

/-- A session with which nothing went wrong. Its requests are done with in their order. -/
structure Honest (encoder : Encoder Backend.simulated.recorded)
    (flight : List (Handle × Backend.simulated.recorded.Promise)) : Prop where
  faithful : encoder.backend.Faithful
  caps : encoder.backend.inner.caps = encoder.caps
  accepted : encoder.backend.refusals = []
  settled : ∃ done flying, encoder.backend.requests = done ++ flying ∧
    encoder.backend.fates = done.map Request.fate ∧
    List.Forall₂ (Due encoder.backend.inner) flying flight

theorem Due.onward {start last : Recorded Backend.simulated} (onward : start.Onward last)
    {requests : List (Request Nat)} (due : List.Forall₂ (Due start.inner) requests flight) :
    List.Forall₂ (Due last.inner) requests flight :=
  due.imp fun _ _ due => ⟨due.picture, onward.owes _ _ due.owes⟩

theorem Honest.go_on (honest : Honest before flight) (onward : before.backend.Onward after.backend)
    {allocated : List (Frame × Option Nat)}
    (adds : before.backend.Adds after.backend allocated [] [] []) (caps : after.caps = before.caps) :
    Honest after flight := by
  obtain ⟨done, flying, requests, fates, due⟩ := honest.settled
  refine ⟨onward.faithful, ?_, ?_, done, flying, ?_, ?_, Due.onward onward due⟩
  · rw [onward.caps, honest.caps, caps]
  · rw [adds.refusals, honest.accepted, List.append_nil]
  · rw [adds.requests, requests, List.append_nil]
  · rw [adds.fates, fates, List.append_nil]

theorem Honest.issue (honest : Honest before flight) {request : Request Nat}
    {promise : Backend.simulated.recorded.Promise} {handle : Handle}
    (fits : request.Fits before.caps)
    (answer : (Backend.simulated.recorded.issue request before.backend).1 = .ok promise)
    (backend : after.backend = (Backend.simulated.recorded.issue request before.backend).2)
    (caps : after.caps = before.caps) : Honest after (flight ++ [(handle, promise)]) := by
  obtain ⟨done, flying, requests, fates, due⟩ := honest.settled
  rw [← honest.caps] at fits
  obtain ⟨given, same, onward, owes⟩ := honest.faithful.issue fits
  cases answer.symm.trans same
  obtain ⟨adds, picture⟩ := issue_adds answer
  rw [← backend] at onward owes adds
  refine ⟨onward.faithful, ?_, ?_, done, flying ++ [request], ?_, ?_, ?_⟩
  · rw [onward.caps, honest.caps, caps]
  · rw [adds.refusals, honest.accepted, List.append_nil]
  · rw [adds.requests, requests, List.append_assoc]
  · rw [adds.fates, fates, List.append_nil]
  · exact List.rel_append (Due.onward onward due) (.cons ⟨picture, owes⟩ .nil)

theorem Honest.deliver {front : Handle × Backend.simulated.recorded.Promise}
    (honest : Honest before (front :: flight)) {image : Nat} {bytes : Option (List UInt8)}
    {gone : List (Picture Nat)}
    (answer : (Encoder.collected (B := Backend.simulated.recorded) image
      (Backend.simulated.recorded.sync front.2 before.backend).1
      (Backend.simulated.recorded.sync front.2 before.backend).2).1.toOption = bytes)
    (backend : after.backend = Encoder.freed (B := Backend.simulated.recorded)
      (Encoder.collected (B := Backend.simulated.recorded) image
        (Backend.simulated.recorded.sync front.2 before.backend).1
        (Backend.simulated.recorded.sync front.2 before.backend).2).2 gone)
    (caps : after.caps = before.caps) : Honest after flight := by
  obtain ⟨done, flying, requests, fates, due⟩ := honest.settled
  cases due with
  | @cons request _ rest _ first due =>
      obtain ⟨bytesEq, collected⟩ := honest.faithful.collected first.owes image
      have adds := Recorded.collected_adds gone answer
      have onward := collected.trans (collected.faithful.freed_all gone)
      rw [← backend] at adds onward
      refine ⟨onward.faithful, ?_, ?_, done ++ [request], rest, ?_, ?_, Due.onward onward due⟩
      · rw [onward.caps, honest.caps, caps]
      · rw [adds.refusals, honest.accepted, List.append_nil]
      · rw [adds.requests, requests, List.append_nil, List.append_assoc]
        rfl
      · rw [adds.fates, fates, List.map_append, ← answer, bytesEq, first.picture]
        rfl

theorem fits_of_adds {allocated : List (Frame × Option Nat)}
    {requested refused : List (Request Nat)} {ended : List Fate}
    (adds : before.backend.Adds after.backend allocated requested refused ended)
    (caps : after.caps = before.caps)
    (fits : ∀ request ∈ after.backend.requests, request.Fits after.caps) :
    ∀ request ∈ before.backend.requests ++ requested, request.Fits before.caps := by
  rwa [caps, adds.requests] at fits

theorem Honest.not_refused (honest : Honest before flight) {scheduler : Scheduler}
    {window : Window Nat} {handle : Handle} {encodeOrder : Nat} {cause : EncodeError}
    (answers : Answers (B := Backend.simulated.recorded) { before with scheduler, window } handle
      encodeOrder (.error cause) after)
    (fits : ∀ request ∈ after.backend.requests, request.Fits after.caps) : False := by
  cases answers with
  | @refused _ request _ _ gone _ _ answer =>
      have asked := (refused_adds (B := Backend.simulated) gone answer).requests
      have fit : request.Fits before.caps := by
        refine fits request ?_
        refine (congrArg (request ∈ ·) asked).mpr ?_
        exact List.mem_append_right _ (List.mem_singleton_self _)
      rw [← honest.caps] at fit
      obtain ⟨_, accepted, _⟩ := honest.faithful.issue fit
      cases accepted.symm.trans answer

theorem Honest.move (honest : Honest before flight) (move : Move before flight more after later)
    (fits : ∀ request ∈ after.backend.requests, request.Fits after.caps) : Honest after later := by
  have caps := move.steady.caps
  cases move with
  | issue _ _ _ answers =>
      cases answers with
      | @accepted _ request _ _ answer =>
          have adds := (issue_adds (B := Backend.simulated) answer).1
          have fit := fits_of_adds adds caps fits request
            (List.mem_append_right _ (List.mem_singleton_self _))
          exact honest.issue fit answer rfl caps
  | refuse _ _ answers => exact (honest.not_refused answers fits).elim
  | deliver _ _ _ delivers =>
      cases delivers with
      | failed _ _ answer => exact honest.deliver answer rfl caps
      | coded _ _ _ answer => exact honest.deliver answer rfl caps
  | finish _ _ _ finishes =>
      cases finishes with
      | @retired gone =>
          exact honest.go_on (honest.faithful.freed_all gone)
            (freed_adds (B := Backend.simulated) gone) caps

theorem Last.caps (last : Last before flight more after later) : after.caps = before.caps := by
  cases last with
  | none => rfl
  | move move => exact move.steady.caps

theorem Honest.moves (honest : Honest before flight) (moves : Moves before flight more after later)
    (fits : ∀ request ∈ after.backend.requests, request.Fits after.caps) : Honest after later := by
  induction moves with
  | none => exact honest
  | next moves move ih =>
      obtain ⟨_, _, _, adds, _⟩ := move.adds
      have before := fits_of_adds adds move.steady.caps fits
      exact (ih fun request asked => before request (List.mem_append_left _ asked)).move move fits

theorem Honest.no_loss (honest : Honest before flight) (loses : Loses before after) : False := by
  cases loses with
  | @frame frame _ _ _ _ _ answer =>
      obtain ⟨⟨_, given⟩, _⟩ := honest.faithful.alloc frame
      cases given.symm.trans answer

theorem Honest.entry (honest : Honest before flight) (entry : Entry before after) :
    Honest after flight := by
  cases entry with
  | nothing => exact honest
  | @frame frame _ _ _ _ _ answer =>
      exact honest.go_on (honest.faithful.alloc frame).2 (allocated_adds answer) rfl
  | ending => exact honest.go_on (.refl honest.faithful) (.refl _) rfl

theorem Honest.coded (honest : Honest encoder flight)
    (fits : ∀ request ∈ encoder.backend.requests, request.Fits encoder.caps) :
    ∀ fate ∈ encoder.backend.fates, fate.2 ≠ none := by
  obtain ⟨done, flying, requests, fates, _⟩ := honest.settled
  intro fate member
  rw [fates] at member
  obtain ⟨request, isDone, rfl⟩ := List.mem_map.mp member
  have writable := (fits request (by
    rw [requests]
    exact List.mem_append_left _ isDone)).writable
  simp [Request.fate, Packet.toBytes, Packet.write, writable, Except.toOption]

theorem Honest.no_slip (honest : Honest before flight) (last : Honest after later)
    (fits : ∀ request ∈ after.backend.requests, request.Fits after.caps)
    (slips : Slips before after) : False := by
  cases slips with
  | refuse answers => exact honest.not_refused answers fits
  | @deliver _ promise _ _ _ _ delivers =>
      cases delivers with
      | @failed _ _ _ gone _ _ _ answer =>
          have ended := (collected_adds (B := Backend.simulated) gone answer).fates
          refine last.coded fits (promise.1, none) ?_ rfl
          refine (congrArg (_ ∈ ·) ended).mpr ?_
          exact List.mem_append_right _ (List.mem_singleton_self _)

theorem Honest.strides (honest : Honest before before.queue.promises)
    {result : Except EncodeError Step} (strides : Strides before result after)
    (fits : ∀ request ∈ after.backend.requests, request.Fits after.caps) :
    (∃ step, result = .ok step) ∧ Honest after after.queue.promises := by
  cases strides with
  | lost loses => exact (honest.no_loss loses).elim
  | went entry picks _ last _ slips =>
      have entered := honest.entry entry
      rw [← entry.queue] at entered
      have whole := entered.moves (picks.last last) fits
      obtain ⟨_, _, _, adds, _⟩ := last.adds
      have before := fits_of_adds adds last.caps fits
      have picked := entered.moves picks fun request asked =>
        before request (List.mem_append_left _ asked)
      refine ⟨?_, whole⟩
      cases result with
      | ok step => exact ⟨step, rfl⟩
      | error cause => exact (picked.no_slip whole fits (slips cause rfl)).elim

/-! Courses. -/

theorem Foretold.fits {B : Backend} {encoder : Encoder B.recorded} {caps : Capabilities}
    (valid : config.Valid) (made : Gop.ofConfig? config caps = some gop)
    (foretold : Foretold { gop } accepted frames encoder) :
    ∀ request ∈ encoder.backend.requests, request.Fits caps := by
  intro request asked
  obtain ⟨place, listed⟩ := List.mem_iff_getElem?.mp asked
  have begins : Begins { gop } encoder.backend.requests := by
    obtain ⟨rest, script⟩ := foretold.script
    exact ⟨_, rest, script⟩
  have deep := (begins.timely (Gop.layered_of_ofConfig? valid made) listed).shallow
  have layers := Gop.layers_of_ofConfig? valid made
  obtain ⟨sized, fresh, _⟩ := Gop.fresh_of_ofConfig? made
  have multi := Gop.multiReference_of_ofConfig? made
  -- what B-pictures may refer to does not matter here, so the device may as well allow everything
  have suits : gop.Suits config { caps with bPictureReferences := true } :=
    { Gop.suits_of_ofConfig? made with topOnly := fun none => by cases none }
  have conforms : request.outline.Conforms config { caps with bPictureReferences := true }
      (encoder.backend.requests.map Request.outline) := by
    obtain ⟨_, _, _, _, _, _, _, _, stage, here⟩ :=
      foretold.stage (List.mem_map_of_mem (f := Request.outline) asked)
    rcases Cursor.mem_turn here with lead | ⟨_, deep, _⟩
    · rw [lead]
      exact stage.lead_conforms suits multi sized fresh fun none => by cases none
    · exact stage.inner_conforms suits (Gop.shallow_of_ofConfig? valid made) here deep
        fun none => by cases none
  obtain ⟨pastRefs, pastList⟩ := Nat.le_min.mp conforms.past
  obtain ⟨futureRefs, futureList⟩ := Nat.le_min.mp conforms.future
  have dpb := conforms.dpb
  simp only [Request.outline, List.length_map] at deep pastRefs pastList futureRefs futureList dpb
  simp only [maxListReferences, maxDpbSize] at pastList futureList dpb
  refine ⟨pastRefs, futureRefs, ?_, ?_, ?_, ?_⟩ <;>
    simp only [Packet.ofRequest, List.length_map] <;> omega

/-- A device with a stream that it can encode, if nothing goes wrong. -/
structure Suited (device : Device) (config : Config) (gop : Gop) : Prop where
  faithful : Recorded.Faithful { inner := device }
  valid : config.Valid
  made : Gop.ofConfig? config device.caps = some gop

abbrev openedOn (device : Device) (gop : Gop) (config : Config) (mode : BlockingMode) :
    Encoder Backend.simulated.recorded :=
  opened (B := Backend.simulated.recorded) { inner := device } gop config mode

section

variable {device : Device} {mode pace : BlockingMode}

theorem Course.recorded {opening : Encoder Backend.simulated.recorded}
    (course : Course Eq opening accepted packets encoder) :
    Course SameCalls opening accepted packets encoder :=
  course.mono fun same => congrArg Recorded.calls same.symm

theorem Suited.starts (suited : Suited device config gop) (mode : BlockingMode) :
    Chronicle { gop } [] [] (openedOn device gop config mode)
      (openedOn device gop config mode).queue.promises :=
  Chronicle.start rfl suited.valid suited.made mode

theorem Suited.honest (suited : Suited device config gop) (mode : BlockingMode) :
    Honest (openedOn device gop config mode) [] :=
  ⟨suited.faithful, rfl, rfl, [], [], rfl, rfl, .nil⟩

theorem Course.fits (course : Course Eq (openedOn device gop config mode) accepted packets encoder)
    (suited : Suited device config gop) :
    ∀ request ∈ encoder.backend.requests, request.Fits encoder.caps := by
  obtain ⟨_, foretold⟩ := course.recorded.foretold (suited.starts mode) rfl rfl
  rw [course.setting.caps]
  exact foretold.fits suited.valid suited.made

theorem Course.honest
    (course : Course Eq (openedOn device gop config mode) accepted packets encoder)
    (suited : Suited device config gop) :
    encoder.failed = false ∧ Honest encoder encoder.queue.promises := by
  induction course with
  | start => exact ⟨rfl, suited.honest mode⟩
  | step course sound strode ih =>
      have fits := (course.step sound strode).fits suited
      obtain ⟨alive, honest⟩ := ih
      cases strode with
      | dead failed => cases alive.symm.trans failed
      | alive _ strides => exact ⟨strides.steady.failed.trans alive, (honest.strides strides fits).2⟩
      | fatal _ strides =>
          obtain ⟨⟨_, same⟩, _⟩ := honest.strides strides fits
          cases same
  | accept _ _ _ _ ih => exact ⟨ih.1, ih.2.go_on (.refl ih.2.faithful) (.refl _) rfl⟩
  | drain _ ih => exact ⟨ih.1, ih.2.go_on (.refl ih.2.faithful) (.refl _) rfl⟩
  | code _ _ ih => exact ⟨ih.1, ih.2.go_on (.refl ih.2.faithful) (.refl _) rfl⟩
  | abandon _ failed _ _ ih => cases ih.1.symm.trans failed
  | progress _ moved ih =>
      cases moved
      exact ih

structure Comes (opening : Encoder Backend.simulated.recorded) (accepted : List Frame)
    (packets : List CodedPicture) (encoder : Encoder Backend.simulated.recorded) : Prop where
  sound : encoder.Sound (Ledger.custody Backend.simulated)
  course : Course Eq opening accepted packets encoder

theorem Comes.step_runs (comes : Comes (openedOn device gop config mode) accepted packets encoder)
    (suited : Suited device config gop) (pace : BlockingMode) :
    ∃ step after, Runs (Encoder.step pace) encoder (.ok step) after ∧
      Comes (openedOn device gop config mode) accepted (packets ++ packetsOf (.ok step)) after := by
  obtain ⟨result, after, runs, sound, _, _, strode⟩ := step_ok comes.sound pace
  have stepped := comes.course.step comes.sound strode
  have fits := stepped.fits suited
  obtain ⟨alive, honest⟩ := comes.course.honest suited
  cases strode with
  | dead failed => cases alive.symm.trans failed
  | fatal _ strides =>
      obtain ⟨⟨_, same⟩, _⟩ := honest.strides strides fits
      cases same
  | alive _ strides =>
      obtain ⟨⟨step, rfl⟩, _⟩ := honest.strides strides fits
      exact ⟨step, after, runs, sound, stepped⟩

theorem Loop.fine {goesOn : Except EncodeError Step → Encoder Backend.simulated.recorded → Bool}
    {keep : Except EncodeError Step → Encoder Backend.simulated.recorded →
      Encoder Backend.simulated.recorded} {outcomes : List (Except EncodeError Step)}
    (loop : Loop pace goesOn keep before outcomes after) (suited : Suited device config gop)
    (comes : Comes (openedOn device gop config mode) accepted packets before)
    (kept : ∀ {outcome accepted packets last},
      Comes (openedOn device gop config mode) accepted packets last →
        Comes (openedOn device gop config mode) accepted packets (keep outcome last)) :
    ∀ outcome ∈ outcomes, ∃ step, outcome = .ok step := by
  induction loop generalizing packets with
  | last result =>
      obtain ⟨step, _, runs, _⟩ := comes.step_runs suited pace
      rw [← result, runs.result_eq]
      simp
  | again result state _ _ ih =>
      obtain ⟨step, _, runs, further⟩ := comes.step_runs suited pace
      rw [← state, runs.state_eq] at ih
      rw [List.forall_mem_cons]
      exact ⟨⟨step, by rw [← result, runs.result_eq]⟩, ih (kept further)⟩

theorem Comes.drain_fine (comes : Comes (openedOn device gop config mode) accepted packets encoder)
    (suited : Suited device config gop) : (drain encoder).result = .ok () := by
  obtain ⟨outcomes, result, after, loop, _, reports, runs⟩ := drain_loop comes.sound
  rw [runs.result_eq]
  refine reports.fine (loop.fine suited ⟨comes.sound.drains, comes.course.drain⟩ ?_)
  intro outcome accepted packets last comes
  obtain ⟨coded, queued⟩ := queueing_eq outcome last
  rw [queued]
  exact ⟨comes.sound.withCoded coded, comes.course.code coded⟩

theorem Comes.nextPacket_fine
    (comes : Comes (openedOn device gop config mode) accepted packets encoder)
    (suited : Suited device config gop) (pace : BlockingMode) :
    ∃ received, (nextPacket pace encoder).result = .ok received := by
  obtain ⟨outcomes, result, after, searches, _, runs⟩ := nextPacket_searches comes.sound pace
  rw [runs.result_eq]
  cases searches with
  | queued => exact ⟨_, rfl⟩
  | @steps _ outcome _ _ loop =>
      obtain ⟨step, rfl⟩ := loop.fine suited comes id outcome (by simp)
      cases step <;> exact ⟨_, rfl⟩

end

end Encoder

end VideoSchedule

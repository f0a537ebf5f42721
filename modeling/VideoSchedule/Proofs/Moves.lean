import VideoSchedule.Proofs.Ending

/-!
The elementary changes of a session. A step is at most one entry, of a frame or of the end of the
stream, and moves after it: a picture is issued or refused, a picture in flight is delivered, or the
stream is finished. What holds in every state of a session is proved move by move.
-/

namespace VideoSchedule.Encoder

open VideoSchedule.Action Scheduler

variable {B : Backend} {start encoder before middle after : Encoder B}

def packetsOf : Except EncodeError Step → List CodedPicture
  | .ok (.packet picture) => [picture]
  | _ => []

theorem packetsOf_error (cause : EncodeError) : packetsOf (.error cause) = [] := rfl

theorem packetsOf_delivered (info : PacketInfo) (bytes : List UInt8) :
    packetsOf (.ok (delivered info bytes)) =
      if bytes.isEmpty then [] else [{ info, bitstream := bytes }] := by
  unfold delivered
  split <;> rfl

inductive Entry (before : Encoder B) : Encoder B → Prop where
  | nothing : Entry before before
  | frame {frame : Frame} {rest : List Frame} {image : B.Image} {cropWarned roiWarned : Bool}
      (waiting : before.waiting = frame :: rest)
      (answer : (B.alloc frame before.backend).1 = .ok image) :
      Entry before (addPicture frame image { before with
        cropWarned, roiWarned
        waiting := rest
        backend := (B.alloc frame before.backend).2 })
  | ending (waiting : before.waiting = []) (draining : before.draining = true)
      (goesOn : before.scheduler.endOfStream = false) : Entry before before.signalEnd

inductive Loses (before : Encoder B) : Encoder B → Prop where
  | frame {frame : Frame} {rest : List Frame} {cause : BackendError} {cropWarned roiWarned : Bool}
      (waiting : before.waiting = frame :: rest)
      (answer : (B.alloc frame before.backend).1 = .error cause) :
      Loses before { before with
        cropWarned, roiWarned
        waiting := rest
        backend := (B.alloc frame before.backend).2 }

inductive Move (before : Encoder B) : List (Handle × B.Promise) → List CodedPicture → Encoder B →
    List (Handle × B.Promise) → Prop where
  | issue {ledger : Ledger B} {flight promises : List (Handle × B.Promise)} {handle : Handle}
      {scheduler : Scheduler} {window : Window B.Image} {promise : B.Promise} {after : Encoder B}
      (core : before.Core ledger [] flight) (free : flight.length < before.queue.capacity)
      (picks : Runs pickNext (before.scheduler, before.window) (.ok (.picture handle))
        (scheduler, window))
      (answers : Answers { before with scheduler, window } handle
        (before.scheduler.encodeOrderFor flight.length) (.ok promise) after) :
      Move before flight [] { after with queue := { after.queue with promises } }
        (flight ++ [(handle, promise)])
  | refuse {ledger : Ledger B} {flight : List (Handle × B.Promise)} {handle : Handle}
      {scheduler : Scheduler} {window : Window B.Image} {cause : EncodeError} {after : Encoder B}
      (core : before.Core ledger [] flight)
      (picks : Runs pickNext (before.scheduler, before.window) (.ok (.picture handle))
        (scheduler, window))
      (answers : Answers { before with scheduler, window } handle
        (before.scheduler.encodeOrderFor flight.length) (.error cause) after) :
      Move before flight [] after flight
  | deliver {ledger : Ledger B} {front : Handle × B.Promise}
      {flight promises : List (Handle × B.Promise)} {picture : Picture B.Image} {encodeOrder : Nat}
      {result : Except EncodeError Step} {after : Encoder B}
      (core : before.Core ledger [] (front :: flight))
      (found : before.window.find? front.1 = some picture)
      (numbered : picture.encodeOrder = some encodeOrder)
      (delivers : Delivers { before with
        queue := { before.queue with promises }
        backend := (B.sync front.2 before.backend).2
        scheduler := before.scheduler.advance encodeOrder } front.1
        (B.sync front.2 before.backend).1 result after) :
      Move before (front :: flight) (packetsOf result) after flight
  | finish {ledger : Ledger B} {after : Encoder B} (core : before.Core ledger [] [])
      (ended : before.scheduler.endOfStream = true)
      (issued : ∀ handle picture, before.window.find? handle = some picture →
        picture.issued = true)
      (finishes : Finishes before after) : Move before [] [] after []

inductive Moves (start : Encoder B) (flight : List (Handle × B.Promise)) : List CodedPicture →
    Encoder B → List (Handle × B.Promise) → Prop where
  | none : Moves start flight [] start flight
  | next {packets more : List CodedPicture} {middle after : Encoder B}
      {left later : List (Handle × B.Promise)} (moves : Moves start flight packets middle left)
      (move : Move middle left more after later) : Moves start flight (packets ++ more) after later

theorem Moves.single {flight later : List (Handle × B.Promise)} {packets : List CodedPicture}
    (move : Move before flight packets after later) : Moves before flight packets after later :=
  .next .none move

inductive Last (before : Encoder B) (flight : List (Handle × B.Promise)) : List CodedPicture →
    Encoder B → List (Handle × B.Promise) → Prop where
  | none : Last before flight [] before flight
  | move {packets : List CodedPicture} {after : Encoder B} {later : List (Handle × B.Promise)}
      (move : Move before flight packets after later) : Last before flight packets after later

theorem Moves.last {flight left later : List (Handle × B.Promise)} {packets : List CodedPicture}
    (moves : Moves before flight [] middle left) (last : Last middle left packets after later) :
    Moves before flight packets after later := by
  cases last with
  | none => exact moves
  | move move => exact moves.next move

def Slack (encoder : Encoder B) : Prop :=
  unissuedIn encoder.window ≤ encoder.scheduler.gop.bPerGroup ∨
    encoder.scheduler.awaitsTimestamps = true

structure CanIssue (encoder : Encoder B) : Prop where
  room : encoder.queue.isFull = false
  picks : ∃ handle, (pickNext (encoder.scheduler, encoder.window)).result = .ok (.picture handle)

theorem CanIssue.not_full (can : encoder.CanIssue) : encoder.queue.isFull ≠ true := by
  rw [can.room]
  exact Bool.false_ne_true

theorem CanIssue.picks_picture (can : encoder.CanIssue) {pick : Pick} {left : Scheduler × Window B.Image}
    (picks : Runs pickNext (encoder.scheduler, encoder.window) (.ok pick) left)
    (none : ∀ handle, pick ≠ .picture handle) : False := by
  obtain ⟨handle, picked⟩ := can.picks
  rw [picks.result_eq] at picked
  cases picked
  exact none handle rfl

theorem CanIssue.not_empty (can : encoder.CanIssue) : encoder.window.handles ≠ [] := by
  intro empty
  have entries : encoder.window.entries = [] := by
    rwa [Window.handles_eq, List.map_eq_nil_iff] at empty
  obtain ⟨pick, next, none⟩ : ∃ pick, encoder.scheduler.nextAnchor encoder.window = .error pick ∧
      ∀ handle, pick ≠ .picture handle := by
    rw [nextAnchor, entries]
    cases ended : encoder.scheduler.endOfStream <;> simp [findAnchor, closeStream]
  have picks : Runs pickNext (encoder.scheduler, encoder.window) (.ok pick)
      (encoder.scheduler, encoder.window) := by
    refine (runs_get _).bind ((runs_ofExcept_ok (by rw [entries]; rfl) _).bind ?_)
    rw [next]
    exact runs_pure _ _
  exact can.picks_picture picks none

/-- A session that waits for its pictures has room for another one between two steps, and takes no
frame in without scheduling one. -/
structure Paces (before after : Encoder B) : Prop where
  room : before.queue.mode = .blocking → before.queue.isFull = false → after.queue.isFull = false
  slack : before.queue.isFull = false →
    unissuedIn after.window ≤ unissuedIn before.window ∨ after.Slack
  picks : before.canProgress = false → before.CanIssue →
    unissuedIn after.window < unissuedIn before.window

inductive Slips (before : Encoder B) : Encoder B → Prop where
  | refuse {handle : Handle} {encodeOrder : Nat} {scheduler : Scheduler} {window : Window B.Image}
      {cause : EncodeError} {after : Encoder B}
      (answers : Answers { before with scheduler, window } handle encodeOrder (.error cause) after) :
      Slips before after
  | deliver {handle : Handle} {promise : B.Promise} {encodeOrder : Nat}
      {queue : OutputQueue (Handle × B.Promise)} {cause : EncodeError} {after : Encoder B}
      (delivers : Delivers { before with
        queue
        backend := (B.sync promise before.backend).2
        scheduler := before.scheduler.advance encodeOrder } handle
        (B.sync promise before.backend).1 (.error cause) after) : Slips before after

/-- What a step does: after an entry pictures may be picked, and what comes last is the only move that
may deliver one. A step that fails either lost a frame, or the backend failed in its last move. -/
inductive Strides (before : Encoder B) (result : Except EncodeError Step) (after : Encoder B) :
    Prop where
  | lost (loses : Loses before after) (failed : result = .error .allocationFailure)
  | went {middle picked : Encoder B} {flight : List (Handle × B.Promise)}
      (entry : Entry before middle) (picks : Moves middle middle.queue.promises [] picked flight)
      (calm : picked.scheduler.encodeOrder = before.scheduler.encodeOrder)
      (last : Last picked flight (packetsOf result) after after.queue.promises)
      (paces : Paces before after)
      (slips : ∀ cause, result = .error cause → Slips picked after)

theorem Core.picked {ledger : Ledger B} {flight : List (Handle × B.Promise)} {handle : Handle}
    {scheduler : Scheduler} {window : Window B.Image} (core : before.Core ledger [] flight)
    (picks : Runs Scheduler.pickNext (before.scheduler, before.window) (.ok (.picture handle))
      (scheduler, window)) :
    Scheduler.Schedules before.scheduler before.window scheduler window ∧
      Scheduler.Pickable scheduler window handle := by
  obtain ⟨laid, fresh, arranged⟩ := core.arranged
  obtain ⟨pick, other, left, runs, picked⟩ := Scheduler.pickNext_ok arranged core.tidy
  cases runs.result_eq.symm.trans picks.result_eq
  cases runs.state_eq.symm.trans picks.state_eq
  cases picked with
  | picture schedules pickable => exact ⟨schedules, pickable⟩

structure Setting (before after : Encoder B) : Prop where
  caps : after.caps = before.caps
  mode : after.mode = before.mode
  queueMode : after.queue.mode = before.queue.mode
  capacity : after.queue.capacity = before.queue.capacity
  bPerGroup : after.scheduler.gop.bPerGroup = before.scheduler.gop.bPerGroup
  maxBDepth : after.scheduler.gop.maxBDepth = before.scheduler.gop.maxBDepth
  outputDelay : after.clock.outputDelay = before.clock.outputDelay
  decodeDelay : after.clock.decodeDelay = before.clock.decodeDelay
  slots : after.clock.ring.length = before.clock.ring.length

theorem Setting.refl (encoder : Encoder B) : Setting encoder encoder :=
  ⟨rfl, rfl, rfl, rfl, rfl, rfl, rfl, rfl, rfl⟩

theorem Setting.trans (first : Setting before middle) (second : Setting middle after) :
    Setting before after :=
  ⟨second.caps.trans first.caps, second.mode.trans first.mode,
    second.queueMode.trans first.queueMode, second.capacity.trans first.capacity,
    second.bPerGroup.trans first.bPerGroup, second.maxBDepth.trans first.maxBDepth,
    second.outputDelay.trans first.outputDelay, second.decodeDelay.trans first.decodeDelay,
    second.slots.trans first.slots⟩

structure Steady (before after : Encoder B) : Prop extends Setting before after where
  failed : after.failed = before.failed

theorem Steady.refl (encoder : Encoder B) : Steady encoder encoder := ⟨.refl encoder, rfl⟩

theorem Steady.trans (first : Steady before middle) (second : Steady middle after) :
    Steady before after :=
  ⟨first.toSetting.trans second.toSetting, second.failed.trans first.failed⟩

section

variable {flight later : List (Handle × B.Promise)} {packets : List CodedPicture}

theorem signalEnd_clock (encoder : Encoder B) :
    ∃ offset, encoder.signalEnd.clock = { encoder.clock with offset } := by
  unfold signalEnd DecodeClock.endStream
  dsimp only
  split
  · split
    · exact ⟨_, rfl⟩
    · exact ⟨_, rfl⟩
  · exact ⟨_, rfl⟩

theorem signalEnd_setting (encoder : Encoder B) : Setting encoder encoder.signalEnd := by
  obtain ⟨offset, clock⟩ := signalEnd_clock encoder
  refine ⟨rfl, rfl, rfl, rfl, rfl, rfl, ?_, ?_, ?_⟩ <;> rw [clock]

theorem Entry.steady (entry : Entry before after) : Steady before after := by
  cases entry with
  | nothing => exact .refl _
  | frame =>
      refine ⟨⟨rfl, rfl, rfl, rfl, rfl, rfl, rfl, rfl, ?_⟩, rfl⟩
      exact DecodeClock.length_ring_recordInput ..
  | ending => exact ⟨signalEnd_setting _, rfl⟩

theorem Loses.steady (loses : Loses before after) : Steady before after := by
  cases loses
  exact ⟨⟨rfl, rfl, rfl, rfl, rfl, rfl, rfl, rfl, rfl⟩, rfl⟩

theorem Move.steady (move : Move before flight packets after later) : Steady before after := by
  cases move with
  | issue core _ picks answers =>
      obtain ⟨schedules, _⟩ := core.picked picks
      cases answers
      exact ⟨⟨rfl, rfl, rfl, rfl, schedules.bPerGroup, schedules.maxBDepth, rfl, rfl, rfl⟩, rfl⟩
  | refuse core picks answers =>
      obtain ⟨schedules, _⟩ := core.picked picks
      cases answers
      exact ⟨⟨rfl, rfl, rfl, rfl, schedules.bPerGroup, schedules.maxBDepth, rfl, rfl, rfl⟩, rfl⟩
  | deliver _ _ _ delivers => cases delivers <;> exact ⟨⟨rfl, rfl, rfl, rfl, rfl, rfl, rfl, rfl, rfl⟩, rfl⟩
  | finish _ _ _ finishes =>
      cases finishes
      exact ⟨⟨rfl, rfl, rfl, rfl, rfl, rfl, rfl, rfl, rfl⟩, rfl⟩

theorem Moves.steady (moves : Moves before flight packets after later) : Steady before after := by
  induction moves with
  | none => exact .refl before
  | next _ move ih => exact ih.trans move.steady

theorem Move.waiting (move : Move before flight packets after later) :
    after.waiting = before.waiting := by
  cases move with
  | issue _ _ _ answers =>
      cases answers
      rfl
  | refuse _ _ answers =>
      cases answers
      rfl
  | deliver _ _ _ delivers => cases delivers <;> rfl
  | finish _ _ _ finishes =>
      cases finishes
      rfl

theorem Moves.waiting (moves : Moves before flight packets after later) :
    after.waiting = before.waiting := by
  induction moves with
  | none => rfl
  | next _ move ih => exact move.waiting.trans ih

theorem Strides.steady {result : Except EncodeError Step} (strides : Strides before result after) :
    Steady before after := by
  cases strides with
  | lost loses => exact loses.steady
  | went entry picks _ last => exact entry.steady.trans (picks.last last).steady

end

end VideoSchedule.Encoder

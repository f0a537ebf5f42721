import VideoSchedule.Proofs.Issue

/-!
Pictures that the backend is done with. Such a picture is complete, its bytes are collected and the
pictures that nobody needs any more are retired, whether the backend failed or not.
-/

namespace VideoSchedule

open VideoSchedule.Action Window

/-- Errors for which the backend is to blame. -/
def EncodeError.ofBackend : EncodeError → Bool
  | .allocationFailure | .issueFailure _ _ | .outputFailure _ _ => true
  | _ => false

namespace DecodeClock

/-- The decode timestamp that the next picture gets: it never goes backwards. -/
def due (clock : DecodeClock) (encodeOrder : Nat) (pts : Int) (noDelay : Bool) : Int :=
  match clock.lastDts with
  | none => clock.rawDts encodeOrder pts noDelay
  | some last => max last (clock.rawDts encodeOrder pts noDelay)

theorem stamp_runs (clock : DecodeClock) (encodeOrder : Nat) (pts : Int) (noDelay : Bool) :
    Runs (stamp encodeOrder pts noDelay) clock (.ok (clock.due encodeOrder pts noDelay))
      { clock with lastDts := some (clock.due encodeOrder pts noDelay) } := by
  have giving : ∀ dts, Runs (giveOut dts) clock (.ok dts) { clock with lastDts := some dts } :=
    fun dts => (runs_modify _ _).bind (runs_pure _ _)
  refine (runs_get _).bind ?_
  unfold due
  cases clock.lastDts with
  | none => exact giving _
  | some last =>
      dsimp only
      split
      next backwards =>
        rw [Int.max_eq_left (Int.le_of_lt backwards)]
        exact (runs_note rfl _).bind (giving last)
      next forwards =>
        rw [Int.max_eq_right (Int.not_lt.mp forwards)]
        exact giving _

end DecodeClock

namespace Encoder

variable {B : Backend} {ledger : Ledger B} {encoder : Encoder B}
  {landed : List Handle} {flight : List (Handle × B.Promise)} {handle : Handle}

theorem Core.sync {front : Handle × B.Promise}
    (core : encoder.Core ledger [] (front :: flight)) :
    ({ encoder with backend := (B.sync front.2 encoder.backend).2 } : Encoder B).Core ledger
      [front.1] flight := by
  obtain ⟨records, holds, carries⟩ := core.records
  cases carries with
  | @cons _ record _ rest carried others =>
      obtain ⟨promise, request⟩ := record
      have promiseEq : promise = front.2 := carried.promise
      rw [promiseEq] at holds
      exact {
        tidy := core.tidy
        arranged := core.arranged
        distinct := core.distinct
        flying := core.flying
        numbered := core.numbered
        ended := core.ended
        stocked := core.stocked
        records := ⟨rest, ledger.sync holds, others⟩ }

theorem Core.call (core : encoder.Core ledger landed flight) {backend : B.State}
    (records : ∃ records, ledger.Holds backend encoder.window.images records ∧
      List.Forall₂ (Carries encoder.window) flight records) :
    ({ encoder with backend } : Encoder B).Core ledger landed flight where
  tidy := core.tidy
  arranged := core.arranged
  distinct := core.distinct
  flying := core.flying
  numbered := core.numbered
  ended := core.ended
  stocked := core.stocked
  records := records

def collected (image : B.Image) :
    Except BackendError B.Coded → B.State → Except BackendError (List UInt8) × B.State
  | .error cause, backend => (.error cause, backend)
  | .ok coded, backend => B.output image coded backend

theorem collect_ok (core : encoder.Core ledger landed flight) {picture : Picture B.Image}
    {image : B.Image} (found : encoder.window.find? handle = some picture)
    (held : picture.image = some image) (ended : Except BackendError B.Coded) :
    ∃ answer, Runs (collect picture ended) encoder (.ok answer)
        { encoder with backend := (collected image ended encoder.backend).2 } ∧
      ({ encoder with
        backend := (collected image ended encoder.backend).2 } : Encoder B).Core ledger
          landed flight ∧
      answer.toOption = (collected image ended encoder.backend).1.toOption ∧
      ∀ cause, answer = .error cause → cause.ofBackend = true := by
  cases ended with
  | error cause =>
      refine ⟨_, runs_pure _ _, core, rfl, fun failure same => ?_⟩
      cases same
      rfl
  | ok coded =>
      obtain ⟨records, holds, carries⟩ := core.records
      have live := mem_images found held
      have coreAfter := core.call ⟨records, ledger.output coded holds live, carries⟩
      refine ⟨_, (runs_require held _ _).bind ((onBackend_runs _ _).bind (runs_pure _ _)),
        coreAfter, ?_, fun failure same => ?_⟩
      · simp only [collected]
        cases (B.output image coded encoder.backend).1 <;> rfl
      · generalize (B.output image coded encoder.backend).1 = answer at same
        cases answer with
        | error cause =>
            cases same
            rfl
        | ok bytes => cases same

def finish (picture : Picture B.Image) : Picture B.Image := { picture with complete := true }

def handOver (picture : Picture B.Image) : Picture B.Image :=
  { picture with complete := true, payload := none }

def describes (picture : Picture B.Image) (encodeOrder : Nat) (dts : Int) : PacketInfo where
  pts := picture.pts
  dts := dts
  duration := picture.duration
  keyFrame := picture.type == .idr
  type := picture.type
  displayOrder := picture.displayOrder
  encodeOrder := encodeOrder
  payload := picture.payload

def delivered (info : PacketInfo) (bitstream : List UInt8) : Step :=
  if bitstream.isEmpty then .empty else .packet { info, bitstream }

theorem advances_finish : Advances (finish (B := B)) where
  layout _ := rfl
  issued _ := rfl
  complete _ _ := rfl
  holds _ := rfl
  released _ := rfl
  numbered _ := id

theorem advances_handOver : Advances (handOver (B := B)) where
  layout _ := rfl
  issued _ := rfl
  complete _ _ := rfl
  holds _ := rfl
  released _ := rfl
  numbered _ := id

theorem advances_fail :
    Advances fun picture : Picture B.Image => { picture with failed := true } where
  layout _ := rfl
  issued _ := rfl
  complete _ := id
  holds _ := rfl
  released _ := rfl
  numbered _ := id

theorem advances_payload :
    Advances fun picture : Picture B.Image => { picture with payload := none } where
  layout _ := rfl
  issued _ := rfl
  complete _ := id
  holds _ := rfl
  released _ := rfl
  numbered _ := id

theorem describe_runs {picture : Picture B.Image} {encodeOrder : Nat}
    (found : encoder.window.find? handle = some picture)
    (numbered : picture.encodeOrder = some encodeOrder) (noDelay : Bool) :
    Runs (describe handle noDelay) encoder
      (.ok (describes picture encodeOrder (encoder.clock.due encodeOrder picture.pts noDelay)))
      { encoder with
        window := encoder.window.adjust handle fun picture => { picture with payload := none }
        clock := { encoder.clock with
          lastDts := some (encoder.clock.due encodeOrder picture.pts noDelay) } } := by
  have stamping := encoder.clock.stamp_runs encodeOrder picture.pts noDelay
  exact (onWindow_runs (fetch_runs found)).bind ((runs_require numbered _ _).bind
    ((onWindow_runs (alter_runs found _)).bind
      ((onClock_runs (by exact stamping)).bind (runs_pure _ _))))

inductive Gains : Except EncodeError Step → Prop where
  | packet (picture : CodedPicture) : Gains (.ok (.packet picture))
  | empty : Gains (.ok .empty)
  | failed {cause : EncodeError} (blame : cause.ofBackend = true) : Gains (.error cause)

def settle (handle : Handle) : Except EncodeError (List UInt8) → Action (Encoder B) Step
  | .error cause => do
    Action.note (.outputFailed cause)
    onWindow (Window.alter handle ({ · with failed := true }))
    retireComplete
    Action.fail cause
  | .ok bitstream => do
    let info ← describe handle (← Action.get).caps.undelayed
    onScheduler (Scheduler.outputDone info.encodeOrder)
    retireComplete
    return if bitstream.isEmpty then .empty else .packet { info, bitstream }

theorem output_runs {picture : Picture B.Image} {backend : B.State}
    {ended : Except BackendError B.Coded} {answer : Except EncodeError (List UInt8)}
    {result : Except EncodeError Step} {after : Encoder B}
    (found : encoder.window.find? handle = some picture)
    (collecting : Runs (collect (finish picture) ended)
      { encoder with window := encoder.window.adjust handle finish } (.ok answer)
      { encoder with window := encoder.window.adjust handle finish, backend })
    (settling : Runs (settle handle answer)
      { encoder with window := encoder.window.adjust handle finish, backend } result after) :
    Runs (output handle ended) encoder result after := by
  have fetching := fetch_runs (find?_adjust_self found (finish (B := B)))
  refine (onWindow_runs (alter_runs found _)).bind ((onWindow_runs fetching).bind
    (collecting.bind ?_))
  cases answer <;> exact settling

inductive Delivers (before : Encoder B) (handle : Handle) (ended : Except BackendError B.Coded) :
    Except EncodeError Step → Encoder B → Prop where
  | failed {picture : Picture B.Image} {image : B.Image} {cause : EncodeError}
      {gone : List (Picture B.Image)} {window : Window B.Image}
      (found : before.window.find? handle = some picture) (held : picture.image = some image)
      (answer : (collected image ended before.backend).1.toOption = none)
      (cleared : Retirement.Cleared before.scheduler.past.recent gone
        (before.window.adjust handle lose) window) :
      Delivers before handle ended (.error cause)
        (({ before with
          backend := (collected image ended before.backend).2 } : Encoder B).discard gone
            window)
  | coded {picture : Picture B.Image} {image : B.Image} {encodeOrder : Nat} {bytes : List UInt8}
      {gone : List (Picture B.Image)} {window : Window B.Image}
      (found : before.window.find? handle = some picture) (held : picture.image = some image)
      (numbered : picture.encodeOrder = some encodeOrder)
      (answer : (collected image ended before.backend).1.toOption = some bytes)
      (cleared : Retirement.Cleared before.scheduler.past.recent gone
        (before.window.adjust handle handOver) window) :
      Delivers before handle ended
        (.ok (delivered (describes picture encodeOrder
          (before.clock.due encodeOrder picture.pts before.caps.undelayed)) bytes))
        (({ before with
          backend := (collected image ended before.backend).2
          scheduler := before.scheduler.outputDone encodeOrder
          clock := { before.clock with
            lastDts := some (before.clock.due encodeOrder picture.pts before.caps.undelayed) } } :
              Encoder B).discard gone window)

theorem Delivers.gains {before after : Encoder B} {ended : Except BackendError B.Coded}
    {result : Except EncodeError Step} (delivers : Delivers before handle ended result after)
    (toBlame : ∀ cause, result = .error cause → cause.ofBackend = true) : Gains result := by
  cases delivers with
  | failed => exact .failed (toBlame _ rfl)
  | coded =>
      unfold delivered
      split
      · exact .empty
      · exact .packet _

theorem output_failed (core : encoder.Core ledger [] flight) {picture : Picture B.Image}
    (found : encoder.window.find? handle = some picture) (issued : picture.issued = true)
    (cause : EncodeError) :
    ∃ gone window, Runs (settle handle (.error cause)) encoder (.error cause)
        (encoder.discard gone window) ∧
      Retirement.Cleared encoder.scheduler.past.recent gone
        (encoder.window.adjust handle fun picture => { picture with failed := true }) window ∧
      (encoder.discard gone window).Core ledger [] flight := by
  obtain ⟨gone, window, retiring, cleared, coreAfter⟩ :=
    retireComplete_runs (core.touch found issued advances_fail rfl)
  exact ⟨gone, window, (runs_note rfl _).bind ((onWindow_runs (alter_runs found _)).bind
    (retiring.bind (runs_fail _ _))), cleared, coreAfter⟩

theorem output_coded (core : encoder.Core ledger [] flight) {picture : Picture B.Image}
    {encodeOrder : Nat} (found : encoder.window.find? handle = some picture)
    (issued : picture.issued = true) (numbered : picture.encodeOrder = some encodeOrder)
    (bytes : List UInt8) {told : Encoder B}
    (toldEq : told = { encoder with
      window := encoder.window.adjust handle fun picture => { picture with payload := none }
      scheduler := encoder.scheduler.outputDone encodeOrder
      clock := { encoder.clock with
        lastDts := some (encoder.clock.due encodeOrder picture.pts encoder.caps.undelayed) } }) :
    ∃ gone window, Runs (settle handle (.ok bytes)) encoder
        (.ok (delivered (describes picture encodeOrder
          (encoder.clock.due encodeOrder picture.pts encoder.caps.undelayed)) bytes))
        (told.discard gone window) ∧
      Retirement.Cleared encoder.scheduler.past.recent gone told.window window ∧
      (told.discard gone window).Core ledger [] flight := by
  subst toldEq
  have coreTold : ({ encoder with
      window := encoder.window.adjust handle fun picture => { picture with payload := none }
      scheduler := encoder.scheduler.outputDone encodeOrder
      clock := { encoder.clock with
        lastDts := some (encoder.clock.due encodeOrder picture.pts encoder.caps.undelayed) } } :
          Encoder B).Core ledger [] flight :=
    (core.touch found issued advances_payload rfl).congr rfl rfl rfl rfl rfl core.ended
  obtain ⟨gone, window, retiring, cleared, coreAfter⟩ := retireComplete_runs coreTold
  refine ⟨gone, window, ?_, cleared, coreAfter⟩
  have describing := describe_runs found numbered encoder.caps.undelayed
  exact (runs_get _).bind (describing.bind ((runs_modify _ _).bind
    (retiring.bind (runs_pure _ _))))

theorem output_ok (core : encoder.Core ledger [handle] flight)
    (ended : Except BackendError B.Coded) :
    ∃ result after, Runs (output handle ended) encoder result after ∧
      Delivers encoder handle ended result after ∧ after.Core ledger [] flight ∧ Gains result ∧
      unissuedIn after.window = unissuedIn encoder.window := by
  obtain ⟨picture, found, issued, _⟩ := (core.flying handle).mp (by simp)
  obtain ⟨image, held⟩ := core.stocked handle picture found
  have foundDone := find?_adjust_self found (finish (B := B))
  have coreDone := core.finish advances_finish fun _ => rfl
  obtain ⟨answer, collecting, coreLeft, answerEq, toBlame⟩ :=
    collect_ok coreDone foundDone held ended
  cases answer with
  | error cause =>
      obtain ⟨gone, window, settling, cleared, coreAfter⟩ :=
        output_failed coreLeft foundDone issued cause
      simp only [adjust_adjust] at cleared
      have delivers : Delivers encoder handle ended (.error cause) (({ encoder with
          backend := (collected image ended encoder.backend).2 } : Encoder B).discard gone
            window) :=
        .failed found held answerEq.symm cleared
      exact ⟨_, _, output_runs found collecting settling, delivers, coreAfter,
        .failed (toBlame cause rfl),
        (unissued_cleared cleared).trans (unissued_advances advances_lose handle _)⟩
  | ok bytes =>
      obtain ⟨encodeOrder, numbered⟩ :=
        Option.isSome_iff_exists.mp (core.numbered handle picture found issued)
      obtain ⟨gone, window, settling, cleared, coreAfter⟩ :=
        output_coded coreLeft foundDone issued numbered bytes rfl
      simp only [adjust_adjust] at cleared
      have delivers := Delivers.coded found held numbered answerEq.symm cleared
      exact ⟨_, _, output_runs found collecting settling, delivers, coreAfter,
        delivers.gains (by simp),
        (unissued_cleared cleared).trans (unissued_advances advances_handOver handle _)⟩

end Encoder

end VideoSchedule

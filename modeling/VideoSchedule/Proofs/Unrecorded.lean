import VideoSchedule.Backend.Recorded
import VideoSchedule.Encoder.Client

/-!
A record leaves no trace. A session over a backend under record does what the session without the
record does, so what is proved with the help of records holds of plain sessions too.
-/

namespace VideoSchedule

namespace Action

variable {σ τ α β γ δ : Type}

/-- On an image of its state an action does what another one does, with images of its values. -/
def Mirrors (image : σ → τ) (view : α → β) (original : Action σ α) (mirror : Action τ β) : Prop :=
  ∀ state, mirror (image state) =
    ⟨(original state).result.map view, image (original state).state, (original state).notices⟩

variable {image : σ → τ} {view : α → β} {later : γ → δ}

theorem mirrors_pure {value : α} {other : β} (same : view value = other) :
    Mirrors image view (Pure.pure value) (Pure.pure other) := by
  subst same
  exact fun _ => rfl

theorem mirrors_get : Mirrors image image get get := fun _ => rfl

theorem mirrors_modify {change : σ → σ} {other : τ → τ}
    (same : ∀ state, other (image state) = image (change state)) :
    Mirrors image id (modify change) (modify other) := by
  intro state
  simp only [modify, same]
  rfl

theorem mirrors_fail (cause : EncodeError) :
    Mirrors image view (fail cause) (fail cause) := fun _ => rfl

theorem mirrors_note (notice : Notice) : Mirrors image id (note notice) (note notice) :=
  fun _ => rfl

theorem mirrors_refuse (notice : Notice) (cause : EncodeError) :
    Mirrors image view (refuse notice cause) (refuse notice cause) := fun _ => rfl

theorem mirrors_ofExcept (result : Except EncodeError α) :
    Mirrors image id (ofExcept result) (ofExcept result) := by
  intro state
  cases result <;> rfl

theorem mirrors_require (value : Option α) (cause : EncodeError) :
    Mirrors image id (require value cause) (require value cause) := by
  intro state
  cases value <;> rfl

theorem mirrors_update {change : σ → α × σ} {other : τ → β × τ}
    (same : ∀ state, other (image state) = (view (change state).1, image (change state).2)) :
    Mirrors image view (update change) (update other) := by
  intro state
  simp only [update, same]
  rfl

theorem Mirrors.bind {first : Action σ α} {mirror : Action τ β} {next : α → Action σ γ}
    {other : β → Action τ δ} (head : Mirrors image view first mirror)
    (tail : ∀ value, Mirrors image later (next value) (other (view value))) :
    Mirrors image later (first >>= next) (mirror >>= other) := by
  intro state
  simp only [bind_run, Action.bind, head state]
  rcases first state with ⟨cause | value, middle, notices⟩
  · rfl
  · simp only [Except.map, tail value middle]

theorem Mirrors.andThen {first : Action σ α} {mirror : Action τ α} {next : α → Action σ γ}
    {other : α → Action τ δ} (head : Mirrors image id first mirror)
    (tail : ∀ value, Mirrors image later (next value) (other value)) :
    Mirrors image later (first >>= next) (mirror >>= other) := head.bind tail

theorem Mirrors.attempt {original : Action σ α} {mirror : Action τ β}
    (mirrors : Mirrors image view original mirror) :
    Mirrors image (Except.map view) (attempt original) (attempt mirror) := by
  intro state
  simp only [Action.attempt, mirrors state]
  rfl

theorem mirrors_when {condition : Prop} [Decidable condition] {original : Action σ Unit}
    {mirror : Action τ Unit} (mirrors : Mirrors image id original mirror) :
    Mirrors image id (when condition original) (when condition mirror) := by
  unfold when
  split
  · exact mirrors
  · exact mirrors_pure rfl

theorem mirrors_zoom {ρ : Type} {part : σ → ρ} {put : ρ → σ → σ} {partOf : τ → ρ}
    {putInto : ρ → τ → τ}
    (parts : ∀ state, partOf (image state) = part state)
    (puts : ∀ after state, putInto after (image state) = image (put after state))
    (action : Action ρ α) :
    Mirrors image id (zoom part put action) (zoom partOf putInto action) := by
  intro state
  simp only [zoom, parts, puts]
  cases (action (part state)).result <;> rfl

end Action

namespace Encoder

open VideoSchedule.Action

variable {B : Backend} {α : Type} {mode : BlockingMode}

def unrecorded (encoder : Encoder B.recorded) : Encoder B where
  backend := encoder.backend.inner
  caps := encoder.caps
  window := encoder.window
  scheduler := encoder.scheduler
  clock := encoder.clock
  queue :=
    { mode := encoder.queue.mode
      capacity := encoder.queue.capacity
      promises := encoder.queue.promises.map fun entry => (entry.1, entry.2.2) }
  waiting := encoder.waiting
  coded := encoder.coded
  mode := encoder.mode
  draining := encoder.draining
  failed := encoder.failed
  failedPictures := encoder.failedPictures
  cropWarned := encoder.cropWarned
  roiWarned := encoder.roiWarned

/-- An action of a session does the same without the record. -/
abbrev Unrecords (recorded : Action (Encoder B.recorded) α) (plain : Action (Encoder B) α) : Prop :=
  Mirrors unrecorded id recorded plain

variable (encoder : Encoder B.recorded)

@[simp] theorem unrecorded_size : encoder.unrecorded.queue.size = encoder.queue.size :=
  List.length_map _

@[simp] theorem unrecorded_isFull : encoder.unrecorded.queue.isFull = encoder.queue.isFull := by
  rw [OutputQueue.isFull, OutputQueue.isFull, unrecorded_size]
  rfl

@[simp] theorem unrecorded_isEmpty : encoder.unrecorded.queue.isEmpty = encoder.queue.isEmpty := by
  rw [OutputQueue.isEmpty, OutputQueue.isEmpty, unrecorded, List.isEmpty_map]

@[simp] theorem unrecorded_stepLimit : encoder.unrecorded.stepLimit = encoder.stepLimit := by
  rw [stepLimit, stepLimit, inFlight, inFlight, unrecorded_size]
  rfl

@[simp] theorem unrecorded_stalled : encoder.unrecorded.stalled mode = encoder.stalled mode := by
  rw [stalled, stalled, unrecorded_isFull]
  have front : (encoder.unrecorded.queue.frontIsReady fun promise =>
      B.isReady encoder.unrecorded.backend promise.2) = encoder.queue.frontIsReady fun promise =>
        B.recorded.isReady encoder.backend promise.2 := by
    rw [OutputQueue.frontIsReady, OutputQueue.frontIsReady, unrecorded]
    cases encoder.queue.promises <;> rfl
  rw [front]
  rfl

variable {encoder}

theorem onWindow_unrecords (action : Action (Window B.Image) α) :
    Unrecords (B := B) (onWindow action) (onWindow action) := by
  unfold onWindow
  exact mirrors_zoom (by intro; rfl) (by intros; rfl) action

theorem onSchedule_unrecords (action : Action (Scheduler × Window B.Image) α) :
    Unrecords (B := B) (onSchedule action) (onSchedule action) := by
  unfold onSchedule
  exact mirrors_zoom (by intro; rfl) (by intros; rfl) action

theorem onClock_unrecords (action : Action DecodeClock α) :
    Unrecords (B := B) (onClock action) (onClock action) := by
  unfold onClock
  exact mirrors_zoom (by intro; rfl) (by intros; rfl) action

theorem onScheduler_unrecords (change : Scheduler → Scheduler) :
    Unrecords (B := B) (onScheduler change) (onScheduler change) :=
  mirrors_modify fun _ => rfl

/-! Pictures that leave. -/

theorem free_unrecords (picture : Picture B.Image) :
    Unrecords (B := B) (free (B := B.recorded) picture) (free picture) := by
  refine mirrors_modify fun encoder => ?_
  simp only [giveBack, unrecorded]
  cases picture.image <;> rfl

theorem freeAll_unrecords (pictures : List (Picture B.Image)) :
    Unrecords (B := B) (freeAll (B := B.recorded) pictures) (freeAll pictures) := by
  induction pictures with
  | nil => exact mirrors_pure rfl
  | cons picture rest ih => exact (free_unrecords picture).andThen fun _ => ih

theorem retireComplete_unrecords : Unrecords (B := B) retireComplete retireComplete :=
  (onWindow_unrecords _).andThen (freeAll_unrecords (B := B))

theorem finishStream_unrecords : Unrecords (B := B) finishStream finishStream :=
  (onSchedule_unrecords _).andThen fun _ => (onWindow_unrecords _).andThen fun gone =>
    (freeAll_unrecords (B := B) gone).andThen fun _ =>
      (onWindow_unrecords _).andThen (freeAll_unrecords (B := B))

/-! Frames that come in. -/

theorem warnCrop_unrecords (frame : Frame) :
    Unrecords (B := B) (warnCrop frame) (warnCrop frame) := by
  refine mirrors_get.bind fun encoder => ?_
  by_cases warns : (!frame.crop.isEmpty && !encoder.cropWarned) = true
  · simp only [warns, unrecorded, if_true]
    exact (mirrors_note _).andThen fun _ => mirrors_modify fun _ => rfl
  · simp only [warns, unrecorded]
    exact mirrors_pure rfl

theorem warnRegions_unrecords (frame : Frame) :
    Unrecords (B := B) (warnRegions frame) (warnRegions frame) := by
  refine mirrors_get.bind fun encoder => ?_
  by_cases warns : (frame.roi && !encoder.caps.roi && !encoder.roiWarned) = true
  · simp only [warns, unrecorded, if_true]
    exact (mirrors_note _).andThen fun _ => mirrors_modify fun _ => rfl
  · simp only [warns, unrecorded]
    exact mirrors_pure rfl

theorem alloc_unrecords (frame : Frame) :
    Unrecords (B := B) (onBackend (B.recorded.alloc frame)) (onBackend (B.alloc frame)) :=
  mirrors_update fun _ => rfl

theorem takeIn_unrecords (frame : Frame) :
    Unrecords (B := B) (takeIn frame) (takeIn frame) := by
  refine (warnCrop_unrecords frame).andThen fun _ => (warnRegions_unrecords frame).andThen fun _ =>
    (alloc_unrecords frame).andThen fun answer => ?_
  cases answer with
  | error cause => exact mirrors_get.bind fun _ => mirrors_refuse _ _
  | ok image => exact mirrors_modify fun _ => rfl

theorem takeNext_unrecords : Unrecords (B := B) takeNext takeNext := by
  refine mirrors_get.bind fun encoder => ?_
  have same : encoder.unrecorded.waiting = encoder.waiting := rfl
  rw [same]
  cases encoder.waiting with
  | cons frame rest =>
      exact (mirrors_modify (by intro; rfl)).andThen fun _ => takeIn_unrecords (B := B) frame
  | nil =>
      by_cases ends : (encoder.draining && !encoder.scheduler.endOfStream) = true
      · simp only [ends, unrecorded, if_true]
        refine mirrors_modify fun session => ?_
        simp only [signalEnd, unrecorded]
        cases session.window.pictures.getLast? <;> rfl
      · simp only [ends, unrecorded]
        exact mirrors_pure rfl

/-! Pictures that are issued. -/

theorem requestFor_unrecords (handle : Handle) (image : B.Image) :
    Unrecords (B := B) (requestFor (B := B.recorded) handle image) (requestFor handle image) := by
  refine mirrors_get.bind fun encoder => (onWindow_unrecords _).andThen fun picture => ?_
  exact (mirrors_ofExcept _).andThen fun _ => (mirrors_ofExcept _).andThen fun _ =>
    (mirrors_ofExcept _).andThen fun _ => mirrors_pure rfl

theorem request_unrecords (handle : Handle) (image : B.Image) :
    Mirrors (unrecorded (B := B)) (Except.map Prod.snd) (request (B := B.recorded) handle image)
      (request handle image) := by
  refine (requestFor_unrecords (B := B) handle image).andThen fun request =>
    mirrors_update fun encoder => ?_
  simp only [Except.map, unrecorded]
  cases (B.issue request encoder.backend.inner).1 <;> rfl

theorem takeImage_unrecords (handle : Handle) :
    Unrecords (B := B) (takeImage (B := B.recorded) handle) (takeImage handle) :=
  (onWindow_unrecords _).andThen fun _ => (mirrors_require _ _).andThen fun _ =>
    (onWindow_unrecords _).andThen fun _ => mirrors_pure rfl

theorem abandon_unrecords (handle : Handle) (cause : BackendError) :
    Mirrors (unrecorded (B := B)) Prod.snd (abandon handle cause) (abandon handle cause) :=
  (onWindow_unrecords _).andThen fun _ => (mirrors_note _).andThen fun _ =>
    (onWindow_unrecords _).andThen fun _ => (retireComplete_unrecords (B := B)).andThen fun _ =>
      mirrors_fail _

theorem issue_unrecords (handle : Handle) (encodeOrder : Nat) :
    Mirrors (unrecorded (B := B)) Prod.snd (issue handle encodeOrder) (issue handle encodeOrder) := by
  refine (onWindow_unrecords _).andThen fun _ => (takeImage_unrecords (B := B) handle).andThen
    fun image => (request_unrecords (B := B) handle image).attempt.bind
      fun answer => (onWindow_unrecords _).andThen fun _ => ?_
  cases answer with
  | error cause => exact mirrors_fail cause
  | ok answer =>
      cases answer with
      | error cause => exact abandon_unrecords (B := B) handle cause
      | ok promise => exact mirrors_pure rfl

/-! Pictures that are output. -/

theorem describe_unrecords (handle : Handle) (noDelay : Bool) :
    Unrecords (B := B) (describe handle noDelay) (describe handle noDelay) :=
  (onWindow_unrecords _).andThen fun _ => (mirrors_require _ _).andThen fun _ =>
    (onWindow_unrecords _).andThen fun _ => (onClock_unrecords _).andThen fun _ => mirrors_pure rfl

theorem collect_unrecords (picture : Picture B.Image) (ended : Except BackendError B.Coded) :
    Unrecords (B := B) (collect (B := B.recorded) picture ended) (collect picture ended) := by
  cases ended with
  | error cause => exact mirrors_pure rfl
  | ok coded =>
      have asks : ∀ image, Unrecords (B := B) (onBackend (B.recorded.output image coded))
          (onBackend (B.output image coded)) := fun _ => mirrors_update fun _ => rfl
      exact (mirrors_require _ _).andThen fun image => (asks image).andThen fun _ => mirrors_pure rfl

theorem output_unrecords (handle : Handle) (ended : Except BackendError B.Coded) :
    Unrecords (B := B) (output (B := B.recorded) handle ended) (output handle ended) := by
  refine (onWindow_unrecords _).andThen fun _ => (onWindow_unrecords _).andThen fun picture =>
    (collect_unrecords (B := B) picture ended).andThen fun answer => ?_
  cases answer with
  | error cause =>
      exact (mirrors_note _).andThen fun _ => (onWindow_unrecords _).andThen fun _ =>
        (retireComplete_unrecords (B := B)).andThen fun _ => mirrors_fail cause
  | ok bitstream =>
      refine mirrors_get.bind fun encoder =>
        (describe_unrecords (B := B) handle encoder.caps.undelayed).andThen fun info =>
          (onScheduler_unrecords _).andThen fun _ => (retireComplete_unrecords (B := B)).andThen
            fun _ => mirrors_pure rfl

/-! Steps. -/

theorem pollQueue_unrecords (mode : BlockingMode) :
    Unrecords (B := B) (pollQueue (B := B.recorded) mode) (pollQueue mode) := by
  refine mirrors_update fun encoder => ?_
  cases queued : encoder.queue.promises with
  | nil => simp [OutputQueue.poll, OutputQueue.take?, unrecorded, queued]
  | cons front rest =>
      by_cases waits : encoder.queue.mode = .blocking ∨ mode = .blocking ∨
          B.isReady encoder.backend.inner front.2.2 = true
      · simp [OutputQueue.poll, OutputQueue.take?, unrecorded, queued, waits, Recorded.record]
      · simp [OutputQueue.poll, OutputQueue.take?, unrecorded, queued, waits]

theorem add_unrecords (handle : Handle) (promise : B.recorded.Promise) :
    Unrecords (B := B) (onQueue (OutputQueue.add (handle, promise)))
      (onQueue (OutputQueue.add (handle, promise.2))) := by
  intro encoder
  have full := unrecorded_isFull encoder
  have size := unrecorded_size encoder
  simp only [onQueue, zoom, OutputQueue.add, bind_run, Action.bind, Action.get, full, size]
  cases encoder.queue.isFull <;>
    simp [Action.refuse, Action.modify, Except.map, unrecorded]

theorem fillPipeline_unrecords : Unrecords (B := B) fillPipeline fillPipeline := by
  refine mirrors_get.bind fun encoder => ?_
  have full := unrecorded_isFull encoder
  have size := unrecorded_size encoder
  rw [full, size]
  cases encoder.queue.isFull with
  | true => exact mirrors_pure rfl
  | false =>
      refine (onSchedule_unrecords _).andThen fun pick => ?_
      cases pick with
      | picture handle =>
          exact (issue_unrecords (B := B) handle _).bind fun promise =>
            (add_unrecords (B := B) handle promise).andThen fun _ => mirrors_pure rfl
      | needMoreInput => exact mirrors_pure rfl
      | pending => exact mirrors_pure rfl
      | endOfStream => exact mirrors_pure rfl

theorem pipelinedStep_unrecords (mode : BlockingMode) :
    Unrecords (B := B) (pipelinedStep mode) (pipelinedStep mode) := by
  refine (fillPipeline_unrecords (B := B)).andThen fun pick => mirrors_get.bind fun encoder => ?_
  rw [unrecorded_isEmpty, unrecorded_isFull]
  have ended : encoder.unrecorded.scheduler.endOfStream = encoder.scheduler.endOfStream := rfl
  rw [ended]
  split
  · split
    · exact (finishStream_unrecords (B := B)).andThen fun _ => mirrors_pure rfl
    · exact mirrors_pure rfl
  · split
    · exact mirrors_pure rfl
    · refine (pollQueue_unrecords (B := B) mode).andThen fun polled => ?_
      cases polled with
      | none => exact mirrors_pure rfl
      | some front =>
          exact (onWindow_unrecords _).andThen fun _ => (mirrors_require _ _).andThen fun _ =>
            (onScheduler_unrecords _).andThen fun _ => output_unrecords (B := B) _ _

theorem sync_unrecords (promise : B.recorded.Promise) :
    Unrecords (B := B) (onBackend (B.recorded.sync promise)) (onBackend (B.sync promise.2)) :=
  mirrors_update fun _ => rfl

theorem directStep_unrecords : Unrecords (B := B) directStep directStep := by
  refine mirrors_get.bind fun encoder => (onSchedule_unrecords _).andThen fun pick => ?_
  cases pick with
  | picture handle =>
      exact (issue_unrecords (B := B) handle _).bind fun promise =>
        (onScheduler_unrecords _).andThen fun _ => (sync_unrecords (B := B) promise).andThen
          fun ended => output_unrecords (B := B) handle ended
  | endOfStream => exact (finishStream_unrecords (B := B)).andThen fun _ => mirrors_pure rfl
  | needMoreInput => exact mirrors_pure rfl
  | pending => exact mirrors_pure rfl

theorem advanceStep_unrecords (mode : BlockingMode) :
    Unrecords (B := B) (advanceStep mode) (advanceStep mode) := by
  refine (takeNext_unrecords (B := B)).andThen fun _ => mirrors_get.bind fun encoder => ?_
  have empty : encoder.unrecorded.window.isEmpty = encoder.window.isEmpty := rfl
  have pipelined : encoder.unrecorded.caps.pipelined = encoder.caps.pipelined := rfl
  have ended : encoder.unrecorded.scheduler.endOfStream = encoder.scheduler.endOfStream := rfl
  rw [empty, pipelined, ended]
  split
  · exact mirrors_pure rfl
  · split
    · exact pipelinedStep_unrecords (B := B) mode
    · exact directStep_unrecords (B := B)

theorem tryStep_unrecords (mode : BlockingMode) :
    Unrecords (B := B) (tryStep mode) (tryStep mode) := by
  refine mirrors_get.bind fun encoder => ?_
  rw [unrecorded_stalled]
  split
  · exact mirrors_pure rfl
  · exact advanceStep_unrecords (B := B) mode

theorem endSession_unrecords (cause : EncodeError) :
    Unrecords (B := B) (endSession cause) (endSession cause) :=
  (mirrors_note _).andThen fun _ => mirrors_modify (by intro; rfl)

theorem step_unrecords (mode : BlockingMode) :
    Unrecords (B := B) (step mode) (step mode) := by
  refine mirrors_get.bind fun encoder => ?_
  have failed : encoder.unrecorded.failed = encoder.failed := rfl
  rw [failed]
  split
  · exact mirrors_fail _
  · refine (tryStep_unrecords (B := B) mode).attempt.bind fun result => ?_
    cases result with
    | ok step => exact mirrors_pure rfl
    | error cause =>
        exact (mirrors_when (endSession_unrecords (B := B) cause)).andThen fun _ => mirrors_fail cause

/-! Calls. -/

theorem encode_unrecords (frame : Frame) : Unrecords (B := B) (encode frame) (encode frame) := by
  refine mirrors_get.bind fun encoder => ?_
  have failed : encoder.unrecorded.failed = encoder.failed := rfl
  have draining : encoder.unrecorded.draining = encoder.draining := rfl
  rw [failed, draining]
  split
  · exact mirrors_fail _
  · split
    · exact mirrors_fail _
    · exact mirrors_modify (by intro; rfl)

theorem stepsWithin_unrecords (mode : BlockingMode) (limit : Nat) :
    Unrecords (B := B) (stepsWithin mode limit) (stepsWithin mode limit) := by
  induction limit with
  | zero => exact mirrors_pure rfl
  | succ limit ih =>
      refine (step_unrecords (B := B) mode).andThen fun step => ?_
      cases step with
      | packet picture => exact mirrors_pure rfl
      | endOfStream => exact mirrors_pure rfl
      | busy => exact mirrors_pure rfl
      | needInput =>
          refine mirrors_get.bind fun encoder => ?_
          have progress : encoder.unrecorded.canProgress = encoder.canProgress := rfl
          rw [progress]
          split
          · exact ih
          · exact mirrors_pure rfl
      | empty =>
          refine mirrors_get.bind fun encoder => ?_
          have progress : encoder.unrecorded.canProgress = encoder.canProgress := rfl
          have ended : encoder.unrecorded.scheduler.endOfStream = encoder.scheduler.endOfStream := rfl
          rw [progress, ended]
          split
          · exact ih
          · exact mirrors_pure rfl

theorem nextPacket_unrecords (mode : BlockingMode) :
    Unrecords (B := B) (nextPacket mode) (nextPacket mode) := by
  refine mirrors_get.bind fun encoder => ?_
  have coded : encoder.unrecorded.coded = encoder.coded := rfl
  rw [coded, unrecorded_stepLimit]
  cases encoder.coded with
  | cons picture rest => exact (mirrors_modify (by intro; rfl)).andThen fun _ => mirrors_pure rfl
  | nil => exact (stepsWithin_unrecords (B := B) mode _).andThen fun _ => mirrors_require _ _

theorem drainWithin_unrecords (first : Option EncodeError) (limit : Nat) :
    Unrecords (B := B) (drainWithin first limit) (drainWithin first limit) := by
  induction limit generalizing first with
  | zero => exact mirrors_pure rfl
  | succ limit ih =>
      refine (step_unrecords (B := B) .blocking).attempt.bind fun result => ?_
      cases result with
      | error cause =>
          show Unrecords (B := B) (ite _ _ _) (ite _ _ _)
          split
          · exact mirrors_fail cause
          · exact ih _
      | ok step =>
          cases step with
          | packet picture => exact (mirrors_modify (by intro; rfl)).andThen fun _ => ih first
          | endOfStream => exact mirrors_pure rfl
          | empty => exact ih first
          | busy => exact ih first
          | needInput =>
              refine mirrors_get.bind fun encoder => ?_
              have progress : encoder.unrecorded.canProgress = encoder.canProgress := rfl
              rw [progress]
              split
              · exact ih first
              · exact mirrors_refuse _ _

theorem drain_unrecords : Unrecords (B := B) drain drain := by
  refine (mirrors_modify (by intro; rfl)).andThen fun _ => mirrors_get.bind fun encoder => ?_
  rw [unrecorded_stepLimit]
  refine (drainWithin_unrecords (B := B) none _).andThen fun ended => ?_
  cases ended with
  | none => exact mirrors_fail _
  | some first =>
      cases first with
      | none => exact mirrors_pure rfl
      | some cause => exact mirrors_fail cause

/-! Whole streams. -/

theorem packetsWithin_unrecords (mode : BlockingMode) (limit : Nat) :
    Unrecords (B := B) (packetsWithin mode limit) (packetsWithin mode limit) := by
  induction limit with
  | zero => exact mirrors_pure rfl
  | succ limit ih =>
      refine (nextPacket_unrecords (B := B) mode).attempt.bind fun result => ?_
      cases result with
      | error cause => exact mirrors_pure rfl
      | ok received =>
          cases received with
          | packet picture => exact ih.andThen fun _ => mirrors_pure rfl
          | wouldBlock => exact mirrors_pure rfl
          | endOfStream => exact mirrors_pure rfl

theorem packets_unrecords (mode : BlockingMode) :
    Unrecords (B := B) (packets mode) (packets mode) := by
  refine mirrors_get.bind fun encoder => ?_
  rw [unrecorded_stepLimit]
  exact packetsWithin_unrecords (B := B) mode _

theorem takeThen_unrecords (left : List Frame) {next : Action (Encoder B.recorded) StreamResult}
    {other : Action (Encoder B) StreamResult} (follows : Unrecords next other) :
    Unrecords (takeThen left next) (takeThen left other) := by
  refine (packets_unrecords (B := B) .nonBlocking).andThen fun taken => ?_
  obtain ⟨pictures, ending⟩ := taken
  cases ending with
  | error cause => exact mirrors_pure rfl
  | ok _ => exact follows.andThen fun _ => mirrors_pure rfl

theorem encodeStream_unrecords (frames : List Frame) :
    Unrecords (B := B) (encodeStream frames) (encodeStream frames) := by
  induction frames with
  | nil =>
      refine (drain_unrecords (B := B)).attempt.bind fun result => ?_
      cases result with
      | error cause => exact mirrors_pure rfl
      | ok _ => exact takeThen_unrecords (B := B) [] (mirrors_pure rfl)
  | cons frame rest ih =>
      refine (encode_unrecords (B := B) frame).attempt.bind fun result => ?_
      cases result with
      | error cause => exact mirrors_pure rfl
      | ok _ => exact takeThen_unrecords (B := B) rest ih

end Encoder

end VideoSchedule

import VideoSchedule.Proofs.Streams

/-!
The picture that each one follows. A step asks the backend for one picture at most. When it does, that
picture names the last reference picture that was asked for before it, refused ones included; an IDR
picture names none.
-/

namespace VideoSchedule

open VideoSchedule.Action Window

/-- A picture of a window, at the time when it is issued after the pictures of some requests. -/
structure Picture.Trails {ι : Type} (window : Window ι) (requests : List (Request ι))
    (picture : Picture ι) : Prop where
  idr : picture.type = .idr → picture.previous = none
  other : picture.type ≠ .idr → ∃ handle previous reference, picture.previous = some handle ∧
    window.find? handle = some previous ∧
    (requests.filter fun request => request.picture.isReference).getLast? = some reference ∧
    previous.displayOrder = reference.picture.displayOrder

theorem Outline.latest_outlines {ι : Type} {requests : List (Request ι)} {order : Nat}
    (latest : Outline.latest (requests.map Request.outline) = some order) :
    ∃ reference,
      (requests.filter fun request => request.picture.isReference).getLast? = some reference ∧
        order = reference.picture.displayOrder := by
  rw [Outline.latest, List.filter_map, List.getLast?_map, Option.map_map,
    Option.map_eq_some_iff] at latest
  obtain ⟨reference, last, same⟩ := latest
  exact ⟨reference, last, same.symm⟩

theorem Picture.Follows.trails {ι : Type} {window : Window ι} {requests : List (Request ι)}
    {picture : Picture ι} (follows : picture.Follows window (requests.map Request.outline)) :
    picture.Trails window requests := by
  rw [Picture.Follows] at follows
  split at follows
  next idr => exact ⟨fun _ => follows, fun other => absurd idr other⟩
  next other =>
    refine ⟨fun idr => absurd idr other, fun _ => ?_⟩
    obtain ⟨handle, live, previous, latest⟩ := follows
    obtain ⟨named, found⟩ := exists_of_mem_handles live
    obtain ⟨reference, last, same⟩ := Outline.latest_outlines latest
    exact ⟨handle, named, reference, previous, found, last, (orderOf_of_find? found).symm.trans same⟩

namespace Encoder

open Recorded

variable {B : Backend} {α β : Type}

/-- The picture that a step issues, if there is one; the session has still to issue it. -/
def issuing {B : Backend} (mode : BlockingMode) : Action (Encoder B) (Option Handle) := do
  let encoder ← Action.get
  if encoder.failed || encoder.stalled mode then return none
  else
    takeNext
    let encoder ← Action.get
    if encoder.window.isEmpty || (encoder.caps.pipelined && encoder.queue.isFull) then return none
    else
      match ← onSchedule Scheduler.pickNext with
      | .picture handle => return some handle
      | _ => return none

/-! Actions that ask the backend for no picture. -/

def Quiet (action : Action (Encoder B.recorded) α) : Prop :=
  ∀ encoder, (action encoder).state.backend.requests = encoder.backend.requests

theorem quiet_of_backend {action : Action (Encoder B.recorded) α}
    (same : ∀ encoder, (action encoder).state.backend = encoder.backend) : Quiet action :=
  fun encoder => congrArg Recorded.requests (same encoder)

theorem Quiet.bind {first : Action (Encoder B.recorded) α}
    {next : α → Action (Encoder B.recorded) β} (head : Quiet first)
    (tail : ∀ value, Quiet (next value)) : Quiet (first >>= next) := by
  intro encoder
  have headHere := head encoder
  rw [bind_run, Action.bind]
  cases ran : first encoder with
  | mk result middle notices =>
      rw [ran] at headHere
      cases result with
      | error cause => exact headHere
      | ok value => exact (tail value middle).trans headHere

theorem quiet_pure (value : α) : Quiet (Pure.pure value : Action (Encoder B.recorded) α) :=
  quiet_of_backend fun _ => rfl

theorem quiet_get : Quiet (Action.get : Action (Encoder B.recorded) _) := quiet_of_backend fun _ => rfl

theorem quiet_note (notice : Notice) : Quiet (Action.note notice : Action (Encoder B.recorded) Unit) :=
  quiet_of_backend fun _ => rfl

theorem quiet_fail (cause : EncodeError) :
    Quiet (Action.fail cause : Action (Encoder B.recorded) α) := quiet_of_backend fun _ => rfl

theorem quiet_onWindow (action : Action (Window B.Image) α) :
    Quiet (onWindow action : Action (Encoder B.recorded) α) := quiet_of_backend fun _ => rfl

theorem quiet_onSchedule (action : Action (Scheduler × Window B.Image) α) :
    Quiet (onSchedule action : Action (Encoder B.recorded) α) := quiet_of_backend fun _ => rfl

theorem quiet_modify {change : Encoder B.recorded → Encoder B.recorded}
    (same : ∀ encoder, (change encoder).backend = encoder.backend) : Quiet (Action.modify change) :=
  quiet_of_backend same

theorem quiet_onScheduler (change : Scheduler → Scheduler) :
    Quiet (onScheduler change : Action (Encoder B.recorded) Unit) := quiet_of_backend fun _ => rfl

theorem quiet_onBackend {call : B.recorded.State → α × B.recorded.State}
    (same : ∀ state : B.recorded.State, (call state).2.requests = state.requests) :
    Quiet (onBackend call) :=
  fun encoder => same encoder.backend

theorem requests_record {call : BackendCall B.Image} (inner : B.State) (state : Recorded B)
    (other : ∀ request failure, call ≠ .issue request failure) :
    (state.record call inner).requests = state.requests := by
  rw [requests, filterMap_record]
  cases call with
  | issue request failure => exact absurd rfl (other request failure)
  | alloc | sync | output | free => exact List.append_nil _

theorem quiet_free (picture : Picture B.Image) :
    Quiet (free picture : Action (Encoder B.recorded) Unit) := by
  intro encoder
  show (giveBack (B := B.recorded) picture encoder.backend).requests = encoder.backend.requests
  rw [giveBack]
  split
  next => exact requests_record _ _ (by simp)
  next => rfl

theorem quiet_require {ρ : Type} (value : Option ρ) (cause : EncodeError) :
    Quiet (Action.require value cause : Action (Encoder B.recorded) ρ) := by
  cases value with
  | none => exact quiet_fail cause
  | some value => exact quiet_pure value

theorem quiet_freeAll (pictures : List (Picture B.Image)) :
    Quiet (freeAll pictures : Action (Encoder B.recorded) Unit) := by
  induction pictures with
  | nil => exact quiet_pure ()
  | cons picture rest ih => exact (quiet_free picture).bind fun _ => ih

theorem quiet_retireComplete : Quiet (retireComplete : Action (Encoder B.recorded) Unit) :=
  (quiet_onWindow _).bind fun gone => quiet_freeAll (B := B) gone

theorem quiet_finishStream : Quiet (finishStream : Action (Encoder B.recorded) Unit) :=
  (quiet_onSchedule _).bind fun _ => (quiet_onWindow _).bind fun gone =>
    (quiet_freeAll (B := B) gone).bind fun _ =>
      (quiet_onWindow _).bind fun gone => quiet_freeAll (B := B) gone

theorem quiet_takeNext : Quiet (takeNext : Action (Encoder B.recorded) Unit) := by
  refine quiet_get.bind fun encoder => ?_
  cases encoder.waiting with
  | nil =>
      dsimp only
      split
      · exact quiet_modify fun _ => rfl
      · exact quiet_pure ()
  | cons frame rest =>
      refine Quiet.bind (quiet_modify fun _ => rfl) fun _ => ?_
      refine Quiet.bind ?_ fun _ => Quiet.bind ?_ fun _ => Quiet.bind ?_ fun answer => ?_
      · refine quiet_get.bind fun _ => ?_
        split
        · exact (quiet_note _).bind fun _ => quiet_modify fun _ => rfl
        · exact quiet_pure ()
      · refine quiet_get.bind fun _ => ?_
        split
        · exact (quiet_note _).bind fun _ => quiet_modify fun _ => rfl
        · exact quiet_pure ()
      · exact quiet_onBackend fun state => requests_record _ _ (by simp)
      · cases answer with
        | error cause => exact quiet_get.bind fun _ => quiet_of_backend fun _ => rfl
        | ok image => exact quiet_modify fun _ => rfl

theorem quiet_output (handle : Handle) (ended : Except BackendError B.Coded) :
    Quiet (output (B := B.recorded) handle ended) := by
  refine (quiet_onWindow _).bind fun _ => (quiet_onWindow _).bind fun picture => Quiet.bind ?_ ?_
  · cases ended with
    | error cause => exact quiet_pure _
    | ok coded =>
        refine (quiet_require _ _).bind fun image => Quiet.bind ?_ fun _ => quiet_pure _
        exact quiet_onBackend fun state => requests_record _ _ (by simp)
  · intro answer
    cases answer with
    | error cause =>
        exact (quiet_note _).bind fun _ => (quiet_onWindow _).bind fun _ =>
          quiet_retireComplete.bind fun _ => quiet_fail cause
    | ok bitstream =>
        refine quiet_get.bind fun _ => Quiet.bind ?_ fun _ => Quiet.bind ?_ fun _ =>
          quiet_retireComplete.bind fun _ => quiet_pure _
        · exact (quiet_onWindow _).bind fun _ => Quiet.bind (quiet_of_backend fun _ => rfl) fun _ =>
            (quiet_onWindow _).bind fun _ => Quiet.bind (quiet_of_backend fun _ => rfl) fun _ =>
              quiet_pure _
        · exact quiet_modify fun _ => rfl

theorem quiet_pollQueue (mode : BlockingMode) : Quiet (pollQueue (B := B.recorded) mode) := by
  intro encoder
  simp only [pollQueue, Action.update, OutputQueue.poll]
  cases encoder.queue.take? mode fun promise => B.recorded.isReady encoder.backend promise.2 with
  | none => rfl
  | some taken => exact requests_record _ _ (by simp)

/-! What an action asks the backend for, announced by another one that does not ask. -/

/-- The requests of an action are those that issuing the picture brings that was announced, if one
was. -/
def Announces (encoder : Encoder B.recorded) (announce : Action (Encoder B.recorded) (Option Handle))
    (action : Action (Encoder B.recorded) α) : Prop :=
  match (announce encoder).result with
  | .ok (some handle) => ∃ encodeOrder, (action encoder).state.backend.requests =
      (issue handle encodeOrder (announce encoder).state).state.backend.requests
  | _ => (action encoder).state.backend.requests = encoder.backend.requests


section

variable {encoder : Encoder B.recorded}
  {announce : Action (Encoder B.recorded) (Option Handle)} {action : Action (Encoder B.recorded) α}

theorem Quiet.announces (quiet : Quiet action) : Announces encoder (return none) action :=
  quiet encoder

theorem announces_issue (handle : Handle) (encodeOrder : Nat) :
    Announces encoder (return (some handle)) (issue (B := B.recorded) handle encodeOrder) :=
  ⟨encodeOrder, rfl⟩

theorem Announces.tail {next : α → Action (Encoder B.recorded) β}
    (announces : Announces encoder announce action) (quiet : ∀ value, Quiet (next value)) :
    Announces encoder announce (action >>= next) := by
  have same : ((action >>= next) encoder).state.backend.requests =
      (action encoder).state.backend.requests := by
    rw [bind_run, Action.bind]
    cases ran : action encoder with
    | mk result middle notices =>
        cases result with
        | error cause => rfl
        | ok value => exact quiet value middle
  rw [Announces] at announces ⊢
  split at announces
  · rw [same]
    exact announces
  · rw [same]
    exact announces

theorem Announces.attempt (announces : Announces encoder announce action) :
    Announces encoder announce (Action.attempt action) := announces

theorem Announces.read {next : Encoder B.recorded → Action (Encoder B.recorded) α}
    (announces : Announces encoder announce (next encoder)) :
    Announces encoder announce (Action.get >>= next) := announces

theorem Announces.reads {next : Encoder B.recorded → Action (Encoder B.recorded) (Option Handle)}
    (announces : Announces encoder (next encoder) action) :
    Announces encoder (Action.get >>= next) action := announces

theorem Announces.head {first : Action (Encoder B.recorded) β}
    {announce : β → Action (Encoder B.recorded) (Option Handle)}
    {action : β → Action (Encoder B.recorded) α} (quiet : Quiet first)
    (announces : ∀ value middle, Announces middle (announce value) (action value)) :
    Announces encoder (first >>= announce) (first >>= action) := by
  have before := quiet encoder
  rw [Announces, bind_run, Action.bind, bind_run, Action.bind]
  cases ran : first encoder with
  | mk result middle notices =>
      rw [ran] at before
      cases result with
      | error cause => exact before
      | ok value =>
          have later := announces value middle
          rw [Announces] at later
          dsimp only at before ⊢
          rw [before] at later
          exact later

theorem announces_fillPipeline (room : encoder.queue.isFull = false) :
    Announces encoder (do
      match ← onSchedule Scheduler.pickNext with
      | .picture handle => return some handle
      | _ => return none) (fillPipeline (B := B.recorded)) := by
  refine .read ?_
  rw [room]
  refine .head (quiet_onSchedule _) fun pick picked => ?_
  cases pick with
  | picture handle =>
      exact (announces_issue handle _).tail fun _ => (quiet_of_backend fun _ => rfl).bind
        fun _ => quiet_pure _
  | needMoreInput => exact (quiet_pure _).announces
  | pending => exact (quiet_pure _).announces
  | endOfStream => exact (quiet_pure _).announces

theorem announces_pipelinedStep (mode : BlockingMode)
    (announces : Announces encoder announce (fillPipeline (B := B.recorded))) :
    Announces encoder announce (pipelinedStep (B := B.recorded) mode) := by
  refine announces.tail fun pick => quiet_get.bind fun encoder => ?_
  split
  · split
    · exact quiet_finishStream.bind fun _ => quiet_pure _
    · exact quiet_pure _
  split
  · exact quiet_pure _
  · refine (quiet_pollQueue mode).bind fun ready => ?_
    cases ready with
    | none => exact quiet_pure _
    | some front =>
        exact (quiet_onWindow _).bind fun _ => (quiet_of_backend fun _ => rfl).bind fun _ =>
          (quiet_onScheduler _).bind fun _ =>
            quiet_output (B := B) front.1 front.2

theorem announces_directStep :
    Announces encoder (do
      match ← onSchedule Scheduler.pickNext with
      | .picture handle => return some handle
      | _ => return none) (directStep (B := B.recorded)) := by
  refine .read (.head (quiet_onSchedule _) fun pick picked => ?_)
  cases pick with
  | picture handle =>
      refine (announces_issue handle _).tail fun promise => ?_
      refine (quiet_onScheduler _).bind fun _ => Quiet.bind ?_ fun ended =>
        quiet_output (B := B) handle ended
      exact quiet_onBackend fun state => requests_record _ _ (by simp)
  | needMoreInput => exact (quiet_pure _).announces
  | pending => exact (quiet_pure _).announces
  | endOfStream => exact (quiet_finishStream.bind fun _ => quiet_pure _).announces

/-- A step asks the backend for the picture that it is said to issue, and for nothing else. -/
theorem announces_step (mode : BlockingMode) (encoder : Encoder B.recorded) :
    Announces encoder (issuing mode) (step mode) := by
  refine .read (.reads ?_)
  cases failed : encoder.failed with
  | true => exact (quiet_fail _).announces
  | false =>
      refine .tail (.attempt (.read ?_)) fun result => ?_
      · cases encoder.stalled mode with
        | true => exact (quiet_pure _).announces
        | false =>
            refine .head quiet_takeNext fun _ taken => .read (.reads ?_)
            cases taken.window.isEmpty with
            | true => exact (quiet_pure _).announces
            | false =>
                cases taken.caps.pipelined with
                | false => exact announces_directStep
                | true =>
                    refine announces_pipelinedStep mode ?_
                    cases full : taken.queue.isFull with
                    | false => exact announces_fillPipeline full
                    | true =>
                        refine .read ?_
                        rw [full]
                        exact (quiet_pure _).announces
      · cases result with
        | ok step => exact quiet_pure _
        | error cause =>
            refine Quiet.bind ?_ fun _ => quiet_fail cause
            unfold Action.when
            split
            · exact (quiet_note _).bind fun _ => quiet_modify fun _ => rfl
            · exact quiet_pure ()

end

/-! What a picture follows. -/

theorem Stands.follows {ledger : Ledger B} {before : Encoder B} {origin : Cursor}
    {cues : List Bool} {done : List Outline} {flight : List (Handle × B.Promise)}
    {scheduler : Scheduler} {window : Window B.Image} {handle : Handle}
    (stands : Stands origin cues done before) (core : before.Core ledger [] flight)
    (picks : Runs Scheduler.pickNext (before.scheduler, before.window) (.ok (.picture handle))
      (scheduler, window)) :
    ∃ picture, window.find? handle = some picture ∧ picture.Follows window done := by
  obtain ⟨_, _, _, _, plot⟩ := stands.plot_of_live (live_of_picked core picks)
  obtain ⟨_, _, _, _, _, picture, _, _, found, _, follows⟩ := plot.picks core.tidy picks
  exact ⟨picture, found, follows⟩

structure Issuing (ledger : Ledger B) (before : Encoder B) (handle : Handle) (taken session : Encoder B) :
    Prop where
  alive : before.failed = false
  entry : Entry before taken
  running : taken.Running ledger
  chosen : session = { taken with scheduler := session.scheduler, window := session.window }
  picks : Runs Scheduler.pickNext (taken.scheduler, taken.window) (.ok (.picture handle))
    (session.scheduler, session.window)
  ready : session.Ready ledger handle taken.queue.promises

theorem issuing_ok {ledger : Ledger B} {encoder : Encoder B} (sound : encoder.Sound ledger)
    (mode : BlockingMode) : Ensures (issuing mode) encoder fun result session =>
      ∀ handle, result = .ok (some handle) →
        ∃ taken, Issuing ledger encoder handle taken session := by
  refine Runs.bind_ensures (runs_get _) ?_
  cases failed : encoder.failed with
  | true => exact (runs_pure _ _).ensures (by simp)
  | false =>
      cases encoder.stalled mode with
      | true => exact (runs_pure _ _).ensures (by simp)
      | false =>
          rcases sound with running | ended
          · refine (takeNext_ok running).bind ?_ (by simp)
            rintro _ taken ⟨runningTaken, took⟩
            cases took with
            | taken took =>
                refine Runs.bind_ensures (runs_get _) ?_
                split
                · exact (runs_pure _ _).ensures (by simp)
                · obtain ⟨pick, scheduler, window, picking, found⟩ := pickNext_found runningTaken.core
                  refine Runs.bind_ensures picking ?_
                  cases found with
                  | picture handle ready _ picks =>
                      refine (runs_pure _ _).ensures fun key same => ?_
                      cases same
                      exact ⟨taken, failed, took.entry, runningTaken, rfl, picks, ready⟩
                  | needMoreInput => exact (runs_pure _ _).ensures (by simp)
                  | pending => exact (runs_pure _ _).ensures (by simp)
                  | endOfStream => exact (runs_pure _ _).ensures (by simp)
          · obtain ⟨_, taking⟩ := ended.resting failed
            have empty : encoder.window.isEmpty = true :=
              Window.isEmpty_iff.mpr ended.window
            refine Runs.bind_ensures taking (Runs.bind_ensures (runs_get _) ?_)
            rw [empty]
            exact (runs_pure _ _).ensures (by simp)

theorem Issuing.requests {ledger : Ledger B.recorded} {before taken session : Encoder B.recorded}
    {handle : Handle} (issuing : Issuing ledger before handle taken session) (encodeOrder : Nat)
    {picture : Picture B.Image} (found : session.window.find? handle = some picture) :
    ∃ request : Request B.Image, request.picture = { picture.info with encodeOrder } ∧
      (issue handle encodeOrder session).state.backend.requests =
        session.backend.requests ++ [request] := by
  obtain ⟨answer, after, issues, answers, _⟩ := issue_ok issuing.ready encodeOrder
  have asked : ∀ {numbered : Picture B.Image} {request : Request B.Image},
      Asks (session.window.adjust handle (number (B := B.recorded) encodeOrder)) handle numbered request →
        request.picture = { picture.info with encodeOrder } := by
    intro numbered request asks
    cases find?_unique asks.found (find?_adjust_self found _)
    exact asks.info
  rw [issues.state_eq]
  cases answers with
  | accepted asks answer =>
      obtain ⟨adds, _⟩ := Recorded.issue_adds answer
      exact ⟨_, asked asks, adds.requests⟩
  | refused asks answer cleared =>
      exact ⟨_, asked asks, (Recorded.refused_adds _ answer).requests⟩

variable {start : Recorded B} {encoder : Encoder B.recorded}

/-- A step makes one request at most. When it does, its picture follows the last reference picture that
was requested before, whether the backend took that one or not; an IDR picture follows none. -/
theorem Reachable.step_trails (nothing : start.calls = [])
    (reachable : Reachable (B := B.recorded) start SameCalls encoder) (mode : BlockingMode) :
    (∀ handle, (issuing mode encoder).result = .ok (some handle) → ∃ picture request encodeOrder,
      (issuing mode encoder).state.window.find? handle = some picture ∧
      request.picture = { picture.info with encodeOrder } ∧
      (step mode encoder).state.backend.requests = encoder.backend.requests ++ [request] ∧
      picture.Trails (issuing mode encoder).state.window encoder.backend.requests) ∧
    ((∀ handle, (issuing mode encoder).result ≠ .ok (some handle)) →
      (step mode encoder).state.backend.requests = encoder.backend.requests) := by
  have announces := announces_step mode encoder
  obtain ⟨result, session, runs, issues⟩ := issuing_ok reachable.invariant mode
  rw [Announces] at announces
  rw [runs.result_eq, runs.state_eq] at announces ⊢
  constructor
  · rintro handle rfl
    obtain ⟨encodeOrder, same⟩ := announces
    obtain ⟨taken, issuing⟩ := issues handle rfl
    obtain ⟨config, openingMode, gop, accepted, packets, valid, made, course⟩ := reachable.course
    obtain ⟨admitted, chronicle, _⟩ := course.chronicle
      (Chronicle.start nothing valid made openingMode) rfl issuing.alive
    have entered : taken.backend.requests = encoder.backend.requests := by
      cases issuing.entry with
      | nothing => rfl
      | frame waiting answer => exact requests_record _ _ (by simp)
      | ending => rfl
    have sessionEq : session.backend.requests = encoder.backend.requests := by
      rw [issuing.chosen]
      exact entered
    obtain ⟨_, told, _⟩ := chronicle.strides reachable.invariant issuing.entry .none
    obtain ⟨picture, found, follows⟩ := told.tells.stands.follows issuing.running.core issuing.picks
    rw [entered] at follows
    obtain ⟨request, info, requests⟩ := issuing.requests encodeOrder found
    refine ⟨picture, request, encodeOrder, found, info, ?_, follows.trails⟩
    rw [same, requests, sessionEq]
  · intro none
    split at announces
    next handle => exact absurd rfl (none handle)
    next => exact announces

/-- Five frames with three B-pictures in two layers, of which the backend refused the upper one. -/
def trailing : Encoder Backend.simulated.recorded :=
  (performAll (List.replicate 5 (.encode {}) ++ List.replicate 3 .poll)
    (onDevice { Device.create .immediate none with failIssue := some (2, false) }
      { maxBFrames := 3, bDepth := 2, asyncDepth := 1 } .nonBlocking)).2

theorem step_trails_trailing :
    trailing.backend.requests.map (fun request => request.picture.displayOrder) = [0, 4, 2] ∧
      trailing.backend.refusals.map (fun refusal => refusal.picture.displayOrder) = [2] ∧
      ∃ (picture : Picture Nat) (request : Request Nat) (encodeOrder : Nat),
        picture.displayOrder = 1 ∧ picture.type ≠ .idr ∧
        (step .nonBlocking trailing).state.backend.requests =
          trailing.backend.requests ++ [request] ∧
        request.picture = { picture.info with encodeOrder } ∧
        picture.Trails (issuing .nonBlocking trailing).state.window trailing.backend.requests := by
  have reachable : Reachable (B := Backend.simulated.recorded)
      { inner := { Device.create .immediate none with failIssue := some (2, false) } } SameCalls
      trailing :=
    (Calls.none.performAll _).reachable
      (.created { maxBFrames := 3, bDepth := 2, asyncDepth := 1 } .nonBlocking rfl)
  have result : (issuing .nonBlocking trailing).result = .ok (some ⟨1, 0⟩) := by decide +kernel
  have named : ((issuing .nonBlocking trailing).state.window.find? ⟨1, 0⟩).map
      (fun picture : Picture Nat => (picture.displayOrder, picture.type)) =
        some (1, .bidirectional) := by
    decide +kernel
  obtain ⟨picture, request, encodeOrder, found, info, requests, follows⟩ :=
    (Reachable.step_trails rfl reachable .nonBlocking).1 _ result
  rw [found, Option.map_some, Option.some.injEq, Prod.mk.injEq] at named
  refine ⟨by decide +kernel, by decide +kernel, picture, request, encodeOrder, named.1, ?_, requests,
    info, follows⟩
  rw [named.2]
  decide

end Encoder

end VideoSchedule

import VideoSchedule.Proofs.Timestamps

/-!
Calls for a packet that would block. Such a call stops at a step that asks for input, although a
picture may be left that the next step would issue. If there is none, the same call again comes to the
same and changes nothing; if there is one, it is issued.
-/

namespace VideoSchedule.Encoder

open VideoSchedule.Action Window Scheduler Recorded

variable {B : Backend} {ledger : Ledger B} {encoder before after opening : Encoder B}
  {mode : BlockingMode} {progress : B.State → B.State → Prop}

/-! Between the calls of a client. -/

/-- A session at rest: if it was drained, it has come to its end. -/
structure Rests (ledger : Ledger B) (encoder : Encoder B) : Prop where
  sound : encoder.Sound ledger
  holds : 0 < encoder.queue.capacity
  drained : encoder.draining = false ∨ encoder.failed = true ∨ encoder.Exhausted

theorem Strode.dead_of_failed {result : Except EncodeError Step}
    (strode : Strode before result after) (failed : before.failed = true) :
    result = .error .sessionFailed ∧ after = before := by
  cases strode with
  | dead => exact ⟨rfl, rfl⟩
  | alive alive => simp [failed] at alive
  | fatal alive => simp [failed] at alive

theorem Rests.step (rests : encoder.Rests ledger) (mode : BlockingMode) :
    Ensures (step mode) encoder fun _ after => after.Rests ledger := by
  obtain ⟨result, after, runs, sound, keeps, _, strode⟩ := step_ok rests.sound mode
  have holds : 0 < after.queue.capacity := by
    rw [strode.setting.capacity]
    exact rests.holds
  refine runs.ensures ⟨sound, holds, ?_⟩
  cases failed : encoder.failed with
  | true =>
      rw [(strode.dead_of_failed failed).2]
      exact Or.inr (Or.inl failed)
  | false =>
      rcases rests.drained with goesOn | dead | exhausted
      · exact Or.inl (keeps.draining.trans goesOn)
      · simp [failed] at dead
      · have same := exhausted.step_runs failed rests.holds mode
        rw [← runs.state_eq, same.state_eq]
        exact Or.inr (Or.inr exhausted)

theorem stepsWithin_next {result : Except EncodeError Step} {middle : Encoder B} {limit : Nat}
    {post : Encoder B → Prop} (stepping : Runs (step mode) encoder result middle)
    (stops : post middle) (goesOn : Ensures (stepsWithin mode limit) middle fun _ => post) :
    Ensures (stepsWithin mode (limit + 1)) encoder fun _ => post := by
  cases result with
  | error cause => exact (Runs.bind_error stepping).ensures stops
  | ok step =>
      refine Runs.bind_ensures stepping ?_
      cases step with
      | packet | endOfStream | busy => exact (runs_pure _ _).ensures stops
      | needInput | empty =>
          refine Runs.bind_ensures (runs_get _) ?_
          split
          · exact goesOn
          · exact (runs_pure _ _).ensures stops

theorem stepsWithin_rests (limit : Nat) (rests : encoder.Rests ledger) :
    Ensures (stepsWithin mode limit) encoder fun _ after => after.Rests ledger := by
  induction limit generalizing encoder with
  | zero => exact (runs_pure _ _).ensures rests
  | succ limit ih =>
      obtain ⟨result, middle, stepping, restsAfter⟩ := rests.step mode
      exact stepsWithin_next stepping restsAfter (ih restsAfter)

theorem Rests.withCoded (rests : encoder.Rests ledger) (coded : List CodedPicture) :
    ({ encoder with coded } : Encoder B).Rests ledger := by
  refine ⟨rests.sound.withCoded coded, rests.holds, rests.drained.imp id (Or.imp id ?_)⟩
  intro exhausted
  exact ⟨exhausted.window, exhausted.queue, exhausted.waiting, exhausted.ended, exhausted.draining⟩

theorem nextPacket_rests (rests : encoder.Rests ledger) (mode : BlockingMode) :
    Ensures (nextPacket mode) encoder fun _ after => after.Rests ledger := by
  refine Runs.bind_ensures (runs_get _) ?_
  cases encoder.coded with
  | cons packet rest =>
      exact Runs.bind_ensures (runs_modify _ _) ((runs_pure _ _).ensures (rests.withCoded rest))
  | nil =>
      refine (stepsWithin_rests encoder.stepLimit rests).bind ?_ fun _ _ => id
      intro found after restsAfter
      cases found with
      | none => exact ⟨_, _, ⟨rfl, rfl, by simp [require]⟩, restsAfter⟩
      | some received => exact (runs_require rfl _ _).ensures restsAfter

theorem encode_rests (rests : encoder.Rests ledger) (frame : Frame) :
    Ensures (encode frame) encoder fun _ after => after.Rests ledger := by
  have growing : Ensures (encode frame) encoder fun _ after => 0 < after.queue.capacity ∧
      (after.draining = false ∨ after.failed = true ∨ after.Exhausted) := by
    refine Runs.bind_ensures (runs_get _) ?_
    cases alive : encoder.failed with
    | true => exact (runs_fail _ _).ensures ⟨rests.holds, rests.drained⟩
    | false =>
        cases goesOn : encoder.draining with
        | true => exact (runs_fail _ _).ensures ⟨rests.holds, rests.drained⟩
        | false => exact (runs_modify _ _).ensures ⟨rests.holds, Or.inl goesOn⟩
  refine ((encode_ok rests.sound frame).and growing).mono ?_
  intro _ after both
  exact ⟨both.1.sound, both.2.1, both.2.2⟩

theorem Rests.of_end (rests : encoder.Rests ledger) (sound : after.Sound ledger)
    (brings : Brings (fun _ _ => False) encoder [] [] encoder [] after)
    (ends : after.failed = true ∨ after.Exhausted) : after.Rests ledger := by
  obtain ⟨_, course, _⟩ := brings
  refine ⟨sound, ?_, Or.inr ends⟩
  rw [course.setting.capacity]
  exact rests.holds

theorem perform_rests (rests : encoder.Rests ledger) (call : Call) :
    Ensures (perform call) encoder fun _ after => after.Rests ledger := by
  have starts : Course (fun _ _ => False) encoder [] [] encoder := .start
  cases call with
  | encode frame =>
      refine (encode_rests rests frame).bind ?_ fun _ _ => id
      exact fun _ _ restsAfter => (runs_pure _ _).ensures restsAfter
  | poll =>
      have polling : Ensures poll encoder fun _ after => after.Rests ledger := by
        refine (nextPacket_rests rests .nonBlocking).bind ?_ fun _ _ => id
        intro received after restsAfter
        cases received <;> exact (runs_pure _ _).ensures restsAfter
      refine polling.bind ?_ fun _ _ => id
      intro found after restsAfter
      cases found <;> exact (runs_pure _ _).ensures restsAfter
  | receive =>
      refine (Runs.bind_ensures (runs_get _) (nextPacket_rests rests encoder.mode)).bind ?_
        fun _ _ => id
      intro received after restsAfter
      cases received <;> exact (runs_pure _ _).ensures restsAfter
  | drain =>
      refine (drain_course rests.sound starts).bind ?_ ?_
      · rintro _ after ⟨sound, brings, ends, _⟩
        exact (runs_pure _ _).ensures (rests.of_end sound brings ends)
      · rintro _ after ⟨sound, brings, ends, _⟩
        exact rests.of_end sound brings ends
  | close =>
      refine (close_course rests.sound starts).bind ?_ ?_
      · rintro _ after ⟨sound, brings, ends⟩
        exact (runs_pure _ _).ensures (rests.of_end sound brings ends)
      · rintro _ after ⟨sound, brings, ends⟩
        exact rests.of_end sound brings ends

theorem Calls.rests {trail : List (Call × Except EncodeError Answer)}
    (calls : Calls progress opening trail encoder) (rests : opening.Rests (Ledger.blank B)) :
    encoder.Rests (Ledger.blank B) := by
  induction calls with
  | none => exact rests
  | call _ call ih =>
      obtain ⟨_, after, runs, restsAfter⟩ := perform_rests ih call
      rw [runs.state_eq]
      exact restsAfter
  | progress _ moved ih =>
      refine ⟨ih.sound.progressed fun _ => trivial, ih.holds, ih.drained.imp id (Or.imp id ?_)⟩
      intro exhausted
      exact ⟨exhausted.window, exhausted.queue, exhausted.waiting, exhausted.ended,
        exhausted.draining⟩

/-! What a call that would block leaves behind. -/

/-- The pipeline is full and nobody waits, or there is room in it and no input left. -/
structure Blocks (mode : BlockingMode) (encoder : Encoder B) : Prop where
  alive : encoder.failed = false
  goesOn : encoder.scheduler.endOfStream = false
  waits : encoder.stalled mode = true ∨
    encoder.canProgress = false ∧ encoder.queue.isFull = false

theorem Sound.goes_on (sound : encoder.Sound ledger) (alive : encoder.failed = false)
    (open_ : encoder.draining = false) : encoder.scheduler.endOfStream = false := by
  cases ended : encoder.scheduler.endOfStream with
  | false => rfl
  | true =>
      rcases sound with running | finished
      · have draining := (running.core.ended ended).2
        simp [open_] at draining
      · have draining := (finished.stopped.resolve_left (by simp [alive])).2
        simp [open_] at draining

theorem stepsWithin_blocks (limit : Nat) (sound : encoder.Sound ledger)
    (open_ : encoder.failed = false → encoder.draining = false)
    (same : encoder.queue.mode = encoder.mode) :
    Ensures (stepsWithin mode limit) encoder fun result after =>
      result = .ok (some .wouldBlock) → after.Blocks mode ∧ Keeps encoder after := by
  induction limit generalizing encoder with
  | zero => exact (runs_pure _ _).ensures (by simp)
  | succ limit ih =>
      obtain ⟨result, after, stepping, soundAfter, keeps, concluded, strode⟩ := step_ok sound mode
      cases result with
      | error cause => exact (Runs.bind_error stepping).ensures (by simp)
      | ok step =>
          have alive := strode.alive_of_ok
          have openAfter : after.draining = false :=
            keeps.draining.trans (open_ (strode.alive_before alive))
          have sameAfter : after.queue.mode = after.mode := by
            rw [strode.setting.queueMode, strode.setting.mode, same]
          have goesOn := soundAfter.goes_on alive openAfter
          have stops : after.stalled mode = true ∨
              after.canProgress = false ∧ after.queue.isFull = false →
                after.Blocks mode ∧ Keeps encoder after :=
            fun waits => ⟨⟨alive, goesOn, waits⟩, keeps⟩
          have further : Ensures (stepsWithin mode limit) after fun result last =>
              result = .ok (some .wouldBlock) → last.Blocks mode ∧ Keeps encoder last := by
            refine (ih soundAfter (fun _ => openAfter) sameAfter).mono ?_
            intro _ last blocks would
            exact ⟨(blocks would).1, keeps.trans (blocks would).2⟩
          refine Runs.bind_ensures stepping ?_
          cases concluded with
          | moved moved =>
              cases moved with
              | busy impatient stalls =>
                  exact (runs_pure _ _).ensures fun _ => stops (Or.inl (stalls goesOn sameAfter))
              | endOfStream => exact (runs_pure _ _).ensures (by simp)
              | needInput _ _ room =>
                  refine Runs.bind_ensures (runs_get _) ?_
                  split
                  next => exact further
                  next halts =>
                    exact (runs_pure _ _).ensures fun _ =>
                      stops (Or.inr ⟨Bool.eq_false_iff.mpr halts, room⟩)
              | gained gains _ room =>
                  cases gains with
                  | packet => exact (runs_pure _ _).ensures (by simp)
                  | empty =>
                      refine Runs.bind_ensures (runs_get _) ?_
                      split
                      next => exact further
                      next halts =>
                        rw [Bool.or_eq_true, not_or, Bool.not_eq_true] at halts
                        exact (runs_pure _ _).ensures fun _ => stops (Or.inr ⟨halts.1, room _ rfl⟩)

theorem receive_blocks (rests : encoder.Rests ledger)
    (same : encoder.queue.mode = encoder.mode) :
    Ensures (perform .receive) encoder fun answer after =>
      answer = .ok .wouldBlock → after.Blocks encoder.mode ∧ Keeps encoder after ∧
        encoder.coded = [] := by
  by_cases exhausted : encoder.failed = false ∧ encoder.Exhausted
  · refine (exhausted.2.receive_runs exhausted.1 rests.holds).ensures ?_
    intro would
    cases coded : encoder.coded <;> simp [coded] at would
  have open_ : encoder.failed = false → encoder.draining = false := by
    intro alive
    rcases rests.drained with goesOn | dead | ended
    · exact goesOn
    · simp [alive] at dead
    · exact absurd ⟨alive, ended⟩ exhausted
  have asking : Ensures (nextPacket encoder.mode) encoder fun result after =>
      result = .ok .wouldBlock → after.Blocks encoder.mode ∧ Keeps encoder after ∧
        encoder.coded = [] := by
    refine Runs.bind_ensures (runs_get _) ?_
    cases coded : encoder.coded with
    | cons packet rest =>
        exact Runs.bind_ensures (runs_modify _ _) ((runs_pure _ _).ensures (by simp))
    | nil =>
        refine (stepsWithin_blocks encoder.stepLimit rests.sound open_ same).bind ?_ (by simp)
        intro found after blocks
        cases found with
        | none => exact ⟨_, _, ⟨rfl, rfl, by simp [require]⟩, by simp [require]⟩
        | some received =>
            refine (runs_require rfl _ _).ensures ?_
            intro would
            cases would
            exact ⟨(blocks rfl).1, (blocks rfl).2, rfl⟩
  refine (Runs.bind_ensures (runs_get _) asking).bind ?_ (by simp)
  intro received after blocks
  cases received with
  | packet | endOfStream => exact (runs_pure _ _).ensures (by simp)
  | wouldBlock => exact (runs_pure _ _).ensures fun _ => blocks rfl

/-! The same call again, if nothing can be issued. -/

theorem takeNext_idle (idle : encoder.canProgress = false) :
    Runs takeNext encoder (.ok ()) encoder := by
  rw [canProgress, Bool.or_eq_false_iff, Bool.not_eq_false', List.isEmpty_iff] at idle
  refine (runs_get _).bind ?_
  simp only [idle.1, idle.2, Bool.false_eq_true, if_false]
  exact runs_pure _ _

theorem Running.advanceStep_idle (running : encoder.Running ledger)
    (goesOn : encoder.scheduler.endOfStream = false) (idle : encoder.canProgress = false)
    (room : encoder.queue.isFull = false) (none : ¬encoder.CanIssue) :
    Runs (advanceStep mode) encoder (.ok .needInput) encoder := by
  refine (takeNext_idle idle).bind ((runs_get _).bind ?_)
  cases empty : encoder.window.isEmpty with
  | true =>
      rw [goesOn]
      exact runs_pure _ _
  | false =>
      obtain ⟨pick, scheduler, window, picking, found⟩ := pickNext_found running.core
      cases found with
      | picture handle _ _ picks => exact absurd ⟨room, handle, picks.result_eq⟩ none
      | endOfStream ended => simp [goesOn] at ended
      | needMoreInput | pending =>
          cases pipelined : encoder.caps.pipelined with
          | false => exact (runs_get _).bind (picking.bind (runs_pure _ _))
          | true =>
              refine (fillPipeline_runs room picking (runs_pure _ _)).bind ((runs_get _).bind ?_)
              cases encoder.queue.isEmpty with
              | true => exact runs_pure _ _
              | false =>
                  rw [room, goesOn]
                  exact runs_pure _ _

theorem Blocks.step_runs (blocks : encoder.Blocks mode) (sound : encoder.Sound ledger)
    (none : ¬encoder.CanIssue) :
    Runs (step mode) encoder (.ok .busy) encoder ∨
      encoder.canProgress = false ∧ Runs (step mode) encoder (.ok .needInput) encoder := by
  have running : encoder.Running ledger := by
    refine sound.resolve_right fun finished => ?_
    have ended := (finished.stopped.resolve_left (by simp [blocks.alive])).1
    simp [blocks.goesOn] at ended
  have stepping : ∀ {result : Except EncodeError Step}, (∃ found, result = .ok found) →
      Runs (tryStep mode) encoder result encoder → Runs (step mode) encoder result encoder := by
    rintro _ ⟨found, rfl⟩ trying
    refine (runs_get _).bind ?_
    rw [blocks.alive]
    exact trying.attempt.bind (runs_pure _ _)
  cases stalled : encoder.stalled mode with
  | true =>
      refine Or.inl (stepping ⟨_, rfl⟩ ((runs_get _).bind ?_))
      rw [stalled]
      exact runs_pure _ _
  | false =>
      obtain ⟨idle, room⟩ := blocks.waits.resolve_left (by simp [stalled])
      refine Or.inr ⟨idle, stepping ⟨_, rfl⟩ ((runs_get _).bind ?_)⟩
      rw [stalled]
      exact running.advanceStep_idle blocks.goesOn idle room none

theorem Blocks.receive_runs (blocks : encoder.Blocks encoder.mode) (sound : encoder.Sound ledger)
    (coded : encoder.coded = []) (none : ¬encoder.CanIssue) :
    Runs (perform .receive) encoder (.ok .wouldBlock) encoder := by
  have stepping : ∀ limit, Runs (stepsWithin encoder.mode (limit + 1)) encoder
      (.ok (some .wouldBlock)) encoder := by
    intro limit
    rcases blocks.step_runs sound none with busy | ⟨idle, needsInput⟩
    · exact busy.bind (runs_pure _ _)
    · refine needsInput.bind ((runs_get _).bind ?_)
      rw [idle]
      exact runs_pure _ _
  have asking : Runs (nextPacket encoder.mode) encoder (.ok .wouldBlock) encoder := by
    refine (runs_get _).bind ?_
    rw [coded]
    exact (stepping _).bind (runs_require rfl _ _)
  exact ((runs_get _).bind asking).bind (runs_pure _ _)

/-! The same call again, if something can be issued. -/

section

variable {opening encoder before after : Encoder B.recorded} {ledger : Ledger B.recorded}
  {flight later : List (Handle × B.recorded.Promise)} {packets : List CodedPicture}
  {accepted : List Frame}

theorem Move.asked (move : Move before flight packets after later) :
    after.backend.requests.length + unissuedIn after.window =
      before.backend.requests.length + unissuedIn before.window := by
  have asks : ∀ {request : Request B.Image} {refused : List (Request B.Image)} {ended : List Fate},
      before.backend.Adds after.backend [] [request] refused ended →
      unissuedIn after.window + 1 = unissuedIn before.window →
        after.backend.requests.length + unissuedIn after.window =
          before.backend.requests.length + unissuedIn before.window := by
    intro request refused ended adds counted
    rw [adds.requests, List.length_append, List.length_singleton, ← counted]
    omega
  have silent : ∀ {ended : List Fate}, before.backend.Adds after.backend [] [] [] ended →
      unissuedIn after.window = unissuedIn before.window →
        after.backend.requests.length + unissuedIn after.window =
          before.backend.requests.length + unissuedIn before.window := by
    intro ended adds counted
    rw [adds.requests, List.append_nil, counted]
  cases move with
  | issue core _ picks answers =>
      have counted := core.unissued_picked picks
      cases answers with
      | accepted _ answer => exact asks (issue_adds answer).1 (counted _)
  | refuse core picks answers =>
      have counted := core.unissued_picked picks (before.scheduler.encodeOrderFor flight.length)
      cases answers with
      | refused _ answer cleared =>
          refine asks (refused_adds _ answer) ?_
          rw [← counted]
          exact congrArg (· + 1) (unissued_left advances_lose cleared)
  | deliver _ _ _ delivers =>
      cases delivers with
      | failed _ _ answer cleared =>
          exact silent (collected_adds _ answer) (unissued_left advances_lose cleared)
      | coded _ _ _ answer cleared =>
          exact silent (collected_adds _ answer) (unissued_left advances_handOver cleared)
  | finish core _ issued finishes =>
      cases finishes with
      | @retired gone _ _ empty =>
          refine silent (freed_adds (B := B) gone) ?_
          rw [unissued_of_issued issued]
          exact unissued_empty empty

theorem Moves.asked (moves : Moves before flight packets after later) :
    after.backend.requests.length + unissuedIn after.window =
      before.backend.requests.length + unissuedIn before.window := by
  induction moves with
  | none => rfl
  | next _ move ih => exact move.asked.trans ih

theorem Strides.asks {result : Except EncodeError Step} (strides : Strides before result after)
    (idle : before.canProgress = false) (can : before.CanIssue) :
    before.backend.requests.length < after.backend.requests.length := by
  cases strides with
  | lost loses =>
      cases loses with
      | frame waiting => simp [canProgress, waiting] at idle
  | went entry picks _ last paces =>
      have asked := (picks.last last).asked
      rw [entry.idle idle] at asked
      have fewer := paces.picks idle can
      omega

theorem Strides.requests_le {result : Except EncodeError Step}
    (strides : Strides before result after) :
    before.backend.requests.length ≤ after.backend.requests.length := by
  cases strides with
  | lost loses =>
      cases loses with
      | @frame frame =>
          have adds : Recorded.Adds before.backend (B.recorded.alloc frame before.backend).2 _ _ _ _ :=
            alloc_adds frame
          rw [adds.requests, List.append_nil]
  | went entry picks _ last =>
      obtain ⟨_, entered⟩ := entry.adds
      obtain ⟨_, _, _, moved⟩ := (picks.last last).adds
      have adds := entered.trans moved
      rw [adds.requests, List.length_append]
      exact Nat.le_add_right _ _

theorem Course.requests_le (course : Course SameCalls opening accepted packets encoder) :
    opening.backend.requests.length ≤ encoder.backend.requests.length := by
  induction course with
  | start => exact Nat.le_refl _
  | step _ _ strode ih =>
      cases strode with
      | dead => exact ih
      | alive _ strides => exact Nat.le_trans ih strides.requests_le
      | fatal _ strides =>
          have more := strides.requests_le
          exact Nat.le_trans ih more
  | accept _ _ _ _ ih => exact ih
  | drain _ ih => exact ih
  | code _ _ ih => exact ih
  | abandon _ _ _ winds ih =>
      rw [requests_of_winds winds]
      exact ih
  | progress _ moved ih =>
      rw [(adds_of_calls moved).requests, List.append_nil]
      exact ih

theorem receive_asks (sound : encoder.Sound ledger) (alive : encoder.failed = false)
    (coded : encoder.coded = []) (idle : encoder.canProgress = false) (can : encoder.CanIssue) :
    Ensures (perform .receive) encoder fun _ after =>
      encoder.backend.requests.length < after.backend.requests.length := by
  obtain ⟨result, middle, stepping, soundMiddle, _, _, strode⟩ := step_ok sound encoder.mode
  have asked : encoder.backend.requests.length < middle.backend.requests.length := by
    cases strode with
    | dead failed => simp [alive] at failed
    | alive _ strides => exact strides.asks idle can
    | fatal _ strides =>
        have more := strides.asks idle can
        exact more
  have starts : Course SameCalls middle [] [] middle := .start
  have going : ∀ limit, Ensures (stepsWithin encoder.mode limit) middle fun _ after =>
      encoder.backend.requests.length < after.backend.requests.length := by
    intro limit
    refine (stepsWithin_course limit soundMiddle starts).mono ?_
    intro _ after ⟨_, _, course⟩
    exact Nat.lt_of_lt_of_le asked course.requests_le
  have asking : Ensures (nextPacket encoder.mode) encoder fun _ after =>
      encoder.backend.requests.length < after.backend.requests.length := by
    refine Runs.bind_ensures (runs_get _) ?_
    rw [coded]
    refine (stepsWithin_next stepping asked (going _)).bind ?_ fun _ _ => id
    intro found after more
    cases found with
    | none => exact ⟨_, _, ⟨rfl, rfl, by simp [require]⟩, more⟩
    | some received => exact (runs_require rfl _ _).ensures more
  refine (Runs.bind_ensures (runs_get _) asking).bind ?_ fun _ _ => id
  intro received after more
  cases received <;> exact (runs_pure _ _).ensures more

variable {start : Recorded B} {config : Config} {trail : List (Call × Except EncodeError Answer)}

/-- A client that was told that it would block, and asks for a packet again, is told the same, and
nothing has changed, if there is no picture to be issued. If there is one, it is issued now. -/
theorem Calls.wouldBlock_again
    (created : ((create (B := B.recorded) start config mode : Action Unit (Encoder B.recorded))
      ()).result = .ok opening)
    (calls : Calls SameCalls opening trail encoder)
    (blocked : (perform .receive encoder).result = .ok .wouldBlock)
    (left : (perform .receive encoder).state = after) :
    (¬after.CanIssue → (perform .receive after).result = .ok .wouldBlock ∧
      (perform .receive after).state = after) ∧
    (after.CanIssue → after.backend.requests.length <
      (perform .receive after).state.backend.requests.length) := by
  obtain ⟨valid, gop, made, rfl⟩ := create_eq_ok created
  have reachable : Reachable (B := B.recorded) start SameCalls (opened start gop config mode) :=
    .created config mode created
  have rests : encoder.Rests (Ledger.blank B.recorded) :=
    calls.rests ⟨reachable.invariant, valid.asyncDepth_pos, Or.inl rfl⟩
  obtain ⟨_, course⟩ := calls.course reachable.invariant rfl
  have same : encoder.queue.mode = encoder.mode := by
    rw [course.setting.queueMode, course.setting.mode]
    rfl
  obtain ⟨_, last, runs, restsAfter, blocks⟩ :=
    (perform_rests rests .receive).and (receive_blocks rests same)
  rw [runs.result_eq] at blocked
  rw [runs.state_eq] at left
  subst left
  obtain ⟨blocks, keeps, coded⟩ := blocks blocked
  rw [← keeps.mode] at blocks
  rw [← keeps.coded] at coded
  constructor
  · intro none
    have again := blocks.receive_runs restsAfter.sound coded none
    exact ⟨again.result_eq, again.state_eq⟩
  · intro can
    have idle : last.canProgress = false := by
      refine (blocks.waits.resolve_left fun stalled => ?_).1
      simp [Encoder.stalled, can.room] at stalled
    obtain ⟨_, _, again, more⟩ := receive_asks restsAfter.sound blocks.alive coded idle can
    rw [again.state_eq]
    exact more

def spacious : Encoder Backend.simulated.recorded :=
  onDevice (Device.create .manual none) { maxBFrames := 1, asyncDepth := 3 } .blocking

theorem spacious_created :
    ((create (B := Backend.simulated.recorded) { inner := Device.create .manual none }
      { maxBFrames := 1, asyncDepth := 3 } .blocking :
        Action Unit (Encoder Backend.simulated.recorded)) ()).result = .ok spacious := rfl

def fed (count : Nat) : Encoder Backend.simulated.recorded :=
  (performAll (List.replicate count (.encode {})) spacious).2

def asked (count : Nat) : Encoder Backend.simulated.recorded := (perform .receive (fed count)).state

theorem fed_calls (count : Nat) : ∃ trail, Calls SameCalls spacious trail (fed count) :=
  ⟨_, Calls.none.performAll _⟩

theorem asked_left (count : Nat) : (perform .receive (fed count)).state = asked count := rfl

theorem asked_blocked :
    (perform .receive (fed 2)).result = .ok .wouldBlock ∧
      (perform .receive (fed 3)).result = .ok .wouldBlock := by
  constructor <;> decide +kernel

/-- With two frames the second picture waits for an anchor. With three the anchor is issued, and the
call stops before the picture between the two. -/
theorem asked_picks : ¬(asked 2).CanIssue ∧ (asked 3).CanIssue := by
  constructor
  · rintro ⟨_, handle, picks⟩
    have needs : (pickNext ((asked 2).scheduler, (asked 2).window)).result = .ok .needMoreInput := by
      decide +kernel
    rw [needs] at picks
    cases picks
  · refine ⟨by decide +kernel, ⟨1, 0⟩, ?_⟩
    decide +kernel

theorem wouldBlock_again_asked :
    (asked 2).backend.requests.length = 1 ∧
    (perform .receive (asked 2)).result = .ok .wouldBlock ∧
    (perform .receive (asked 2)).state.backend.requests.length = 1 ∧
    (asked 3).backend.requests.length = 2 ∧
    2 < (perform .receive (asked 3)).state.backend.requests.length := by
  obtain ⟨_, fewCalls⟩ := fed_calls 2
  obtain ⟨_, moreCalls⟩ := fed_calls 3
  have few := Calls.wouldBlock_again spacious_created fewCalls asked_blocked.1 (asked_left 2)
  have more := Calls.wouldBlock_again spacious_created moreCalls asked_blocked.2 (asked_left 3)
  obtain ⟨same, unchanged⟩ := few.1 asked_picks.1
  have one : (asked 2).backend.requests.length = 1 := by decide +kernel
  have two : (asked 3).backend.requests.length = 2 := by decide +kernel
  have third := more.2 asked_picks.2
  rw [two] at third
  refine ⟨one, same, ?_, two, third⟩
  rw [unchanged]
  exact one

/-- A call stops after a step that asks for input, although the next step issues a picture without any:
the same call again comes to a packet. -/
theorem wouldBlock_unstable : ∃ trail, Calls SameCalls spacious trail (fed 3) ∧
    (perform .receive (fed 3)).result = .ok .wouldBlock ∧
    (perform .receive (fed 3)).state = asked 3 ∧
    (asked 3).backend.requests.map (fun request => request.picture.displayOrder) = [0, 2] ∧
    (perform .receive (asked 3)).result ≠ .ok .wouldBlock ∧
    (perform .receive (asked 3)).state.backend.requests.map
      (fun request => request.picture.displayOrder) = [0, 2, 1] := by
  obtain ⟨trail, calls⟩ := fed_calls 3
  refine ⟨trail, calls, asked_blocked.2, asked_left 3, ?_, ?_, ?_⟩
  · decide +kernel
  · decide +kernel
  · decide +kernel

end

end VideoSchedule.Encoder

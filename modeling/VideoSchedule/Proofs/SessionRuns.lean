import VideoSchedule.Proofs.Reachable

/-!
Courses of a session. Between its creation and any later state there are steps, frames that were
accepted, and what the backend does on its own; every call of a client is a course, and so is every
state that can be reached.
-/

namespace VideoSchedule.Encoder

open VideoSchedule.Action Window

variable {B : Backend} {progress : B.State → B.State → Prop} {start encoder before after : Encoder B}
  {accepted : List Frame} {packets : List CodedPicture} {ledger : Ledger B} {mode : BlockingMode}

/-- How a session goes on from `start`, with the frames that it accepted and the packets that came of
its steps. -/
inductive Course (progress : B.State → B.State → Prop) (start : Encoder B) :
    List Frame → List CodedPicture → Encoder B → Prop where
  | start : Course progress start [] [] start
  | step {accepted : List Frame} {packets : List CodedPicture} {before after : Encoder B}
      {ledger : Ledger B} {result : Except EncodeError Step}
      (course : Course progress start accepted packets before) (sound : before.Sound ledger)
      (strode : Strode before result after) :
      Course progress start accepted (packets ++ packetsOf result) after
  | accept {accepted : List Frame} {packets : List CodedPicture} {before : Encoder B}
      (course : Course progress start accepted packets before) (frame : Frame)
      (alive : before.failed = false) (goesOn : before.draining = false) :
      Course progress start (accepted ++ [frame]) packets
        { before with waiting := before.waiting ++ [frame] }
  | drain {accepted : List Frame} {packets : List CodedPicture} {before : Encoder B}
      (course : Course progress start accepted packets before) :
      Course progress start accepted packets { before with draining := true }
  | code {accepted : List Frame} {packets : List CodedPicture} {before : Encoder B}
      (course : Course progress start accepted packets before) (coded : List CodedPicture) :
      Course progress start accepted packets { before with coded }
  | abandon {accepted : List Frame} {packets : List CodedPicture} {before : Encoder B}
      {window : Window B.Image} {backend : B.State} {failedPictures : Nat}
      (course : Course progress start accepted packets before) (failed : before.failed = true)
      (empty : window.handles = []) (winds : Winds before.backend backend) :
      Course progress start accepted packets
        { before with
          window, backend, failedPictures
          queue := { before.queue with promises := [] }
          waiting := [] }
  | progress {accepted : List Frame} {packets : List CodedPicture} {before : Encoder B}
      {backend : B.State} (course : Course progress start accepted packets before)
      (moved : progress before.backend backend) :
      Course progress start accepted packets { before with backend }

theorem Course.mono {other : B.State → B.State → Prop}
    (course : Course progress start accepted packets encoder)
    (implies : ∀ {before after : B.State}, progress before after → other before after) :
    Course other start accepted packets encoder := by
  induction course with
  | start => exact .start
  | step _ sound strode ih => exact ih.step sound strode
  | accept _ frame alive goesOn ih => exact ih.accept frame alive goesOn
  | drain _ ih => exact ih.drain
  | code _ coded ih => exact ih.code coded
  | abandon _ failed empty winds ih => exact ih.abandon failed empty winds
  | progress _ moved ih => exact ih.progress (implies moved)

/-- The stream was encoded to its end, and every picture has left. -/
structure Exhausted (encoder : Encoder B) : Prop where
  window : encoder.window.handles = []
  queue : encoder.queue.promises = []
  waiting : encoder.waiting = []
  ended : encoder.scheduler.endOfStream = true
  draining : encoder.draining = true

theorem Sound.exhausted (sound : encoder.Sound ledger) (alive : encoder.failed = false)
    (ended : encoder.scheduler.endOfStream = true) (empty : encoder.window.handles = []) :
    encoder.Exhausted := by
  rcases sound with running | finished
  · obtain ⟨nothing, draining⟩ := running.core.ended ended
    refine ⟨empty, ?_, nothing, ended, draining⟩
    cases queued : encoder.queue.promises with
    | nil => rfl
    | cons front rest =>
        obtain ⟨picture, found, _⟩ := (running.core.flying front.1).mp (by simp [queued])
        have live := mem_handles_of_find? found
        rw [empty] at live
        cases live
  · have draining := finished.stopped.resolve_left (by simp [alive])
    exact ⟨empty, finished.queue, finished.waiting, ended, draining.2⟩

/-- What a call brings: the packets it hands over and those it leaves queued are those that were
queued before and those of its steps. -/
def Brings (progress : B.State → B.State → Prop) (start : Encoder B) (accepted : List Frame)
    (packets : List CodedPicture) (before : Encoder B) (handed : List CodedPicture)
    (after : Encoder B) : Prop :=
  ∃ produced, Course progress start accepted (packets ++ produced) after ∧
    handed ++ after.coded = before.coded ++ produced

theorem Course.brings (course : Course progress start accepted packets after)
    (same : after.coded = before.coded) :
    Brings progress start accepted packets before [] after := by
  refine ⟨[], ?_, by rw [List.nil_append, List.append_nil, same]⟩
  rwa [List.append_nil]

theorem Strode.setting {result : Except EncodeError Step} (strode : Strode before result after) :
    Setting before after := by
  cases strode with
  | dead => exact .refl _
  | alive _ strides => exact strides.steady.toSetting
  | fatal _ strides =>
      have setting := strides.steady.toSetting
      exact ⟨setting.caps, setting.mode, setting.queueMode, setting.capacity, setting.bPerGroup,
        setting.maxBDepth, setting.outputDelay, setting.decodeDelay, setting.slots⟩

theorem Course.setting (course : Course progress start accepted packets encoder) :
    Setting start encoder := by
  induction course with
  | start => exact .refl _
  | step _ _ strode ih => exact ih.trans strode.setting
  | accept _ _ _ _ ih => exact ih.trans ⟨rfl, rfl, rfl, rfl, rfl, rfl, rfl, rfl, rfl⟩
  | drain _ ih => exact ih.trans ⟨rfl, rfl, rfl, rfl, rfl, rfl, rfl, rfl, rfl⟩
  | code _ _ ih => exact ih.trans ⟨rfl, rfl, rfl, rfl, rfl, rfl, rfl, rfl, rfl⟩
  | abandon _ _ _ _ ih => exact ih.trans ⟨rfl, rfl, rfl, rfl, rfl, rfl, rfl, rfl, rfl⟩
  | progress _ _ ih => exact ih.trans ⟨rfl, rfl, rfl, rfl, rfl, rfl, rfl, rfl, rfl⟩

/-! Packets. -/

def handedOver : Except EncodeError Received → List CodedPicture
  | .ok (.packet picture) => [picture]
  | _ => []

def handedWithin : Except EncodeError (Option Received) → List CodedPicture
  | .ok (some (.packet picture)) => [picture]
  | _ => []

theorem stepsWithin_course (limit : Nat) (sound : encoder.Sound ledger)
    (course : Course progress start accepted packets encoder) :
    Ensures (stepsWithin mode limit) encoder fun result after => after.Sound ledger ∧
      after.coded = encoder.coded ∧
        Course progress start accepted (packets ++ handedWithin result) after := by
  induction limit generalizing encoder with
  | zero =>
      refine (runs_pure _ _).ensures ⟨sound, rfl, ?_⟩
      simpa [handedWithin] using course
  | succ limit ih =>
      obtain ⟨result, after, stepping, soundAfter, keeps, _, strode⟩ := step_ok sound mode
      have stepped := course.step sound strode
      have goesOn : packetsOf result = [] →
          Ensures (stepsWithin mode limit) after fun result last => last.Sound ledger ∧
            last.coded = encoder.coded ∧
              Course progress start accepted (packets ++ handedWithin result) last := by
        intro none
        rw [none, List.append_nil] at stepped
        refine (ih soundAfter stepped).mono fun result last both => ?_
        exact ⟨both.1, both.2.1.trans keeps.coded, both.2.2⟩
      cases result with
      | error cause => exact (Runs.bind_error stepping).ensures ⟨soundAfter, keeps.coded, stepped⟩
      | ok step =>
          refine Runs.bind_ensures stepping ?_
          cases step with
          | packet picture => exact (runs_pure _ _).ensures ⟨soundAfter, keeps.coded, stepped⟩
          | endOfStream => exact (runs_pure _ _).ensures ⟨soundAfter, keeps.coded, stepped⟩
          | busy => exact (runs_pure _ _).ensures ⟨soundAfter, keeps.coded, stepped⟩
          | needInput =>
              refine Runs.bind_ensures (runs_get _) ?_
              split
              · exact goesOn rfl
              · exact (runs_pure _ _).ensures ⟨soundAfter, keeps.coded, stepped⟩
          | empty =>
              refine Runs.bind_ensures (runs_get _) ?_
              split
              · exact goesOn rfl
              · exact (runs_pure _ _).ensures ⟨soundAfter, keeps.coded, stepped⟩

theorem nextPacket_course (mode : BlockingMode) (sound : encoder.Sound ledger)
    (course : Course progress start accepted packets encoder) :
    Ensures (nextPacket mode) encoder fun result after => after.Sound ledger ∧
      Brings progress start accepted packets encoder (handedOver result) after := by
  refine Runs.bind_ensures (runs_get _) ?_
  cases codedEq : encoder.coded with
  | cons picture rest =>
      refine Runs.bind_ensures (runs_modify _ _) ((runs_pure _ _).ensures
        ⟨sound.withCoded rest, [], ?_, ?_⟩)
      · rw [List.append_nil]
        exact course.code rest
      · rw [codedEq]
        simp [handedOver]
  | nil =>
      have none : ∀ {handed : List CodedPicture} {after : Encoder B}, after.coded = encoder.coded →
          handed ++ after.coded = encoder.coded ++ handed := by
        intro handed after same
        rw [same, codedEq, List.append_nil, List.nil_append]
      refine (stepsWithin_course encoder.stepLimit sound course).bind ?_ ?_
      · rintro (_ | received) after ⟨soundAfter, same, courseAfter⟩
        · exact (runs_fail _ _).ensures ⟨soundAfter, _, courseAfter, none same⟩
        · refine (runs_require rfl _ _).ensures ⟨soundAfter, _, courseAfter, ?_⟩
          cases received <;> exact none same
      · rintro cause after ⟨soundAfter, same, courseAfter⟩
        exact ⟨soundAfter, _, courseAfter, none same⟩

/-! The end of the stream. -/

theorem Strode.alive_before {result : Except EncodeError Step} (strode : Strode before result after)
    (alive : after.failed = false) : before.failed = false := by
  cases strode with
  | dead => exact alive
  | alive aliveBefore => exact aliveBefore
  | fatal aliveBefore => exact aliveBefore

theorem Strode.alive_of_ok {step : Step} (strode : Strode before (.ok step) after) :
    after.failed = false := by
  cases strode with
  | alive alive strides => exact strides.steady.failed.trans alive

/-- How draining may end: the stream is encoded to its end, or an error was fatal. -/
structure Drains (result : Except EncodeError (Option (Option EncodeError))) (after : Encoder B) :
    Prop where
  finished : ∀ first, result = .ok (some first) → after.failed = false ∧ after.Exhausted
  fatal : ∀ cause, result = .error cause → cause.isFatal = true

theorem drainWithin_course (first : Option EncodeError) (limit : Nat) (sound : encoder.Sound ledger)
    (draining : encoder.draining = true) (course : Course progress start accepted packets encoder) :
    Ensures (drainWithin first limit) encoder fun result after => after.Sound ledger ∧
      Brings progress start accepted packets encoder [] after ∧ Drains result after := by
  induction limit generalizing first packets encoder with
  | zero => exact (runs_pure _ _).ensures ⟨sound, course.brings rfl, by simp, by simp⟩
  | succ limit ih =>
      obtain ⟨result, after, stepping, soundAfter, keeps, concluded, strode⟩ := step_ok sound .blocking
      have drainingAfter := keeps.draining.trans draining
      have stepped := course.step sound strode
      have stops : packetsOf result = [] → ∀ {last : Except EncodeError (Option (Option EncodeError))},
          Drains last after → after.Sound ledger ∧
            Brings progress start accepted packets encoder [] after ∧ Drains last after := by
        intro none last drains
        rw [none, List.append_nil] at stepped
        exact ⟨soundAfter, stepped.brings keeps.coded, drains⟩
      have goesOn : packetsOf result = [] → ∀ first, Ensures (drainWithin first limit) after
          fun result last => last.Sound ledger ∧
            Brings progress start accepted packets encoder [] last ∧ Drains result last := by
        intro none first
        rw [none, List.append_nil] at stepped
        refine (ih first soundAfter drainingAfter stepped).mono ?_
        rintro result last ⟨soundLast, ⟨produced, courseLast, same⟩, drains⟩
        exact ⟨soundLast, ⟨produced, courseLast, by rw [same, keeps.coded]⟩, drains⟩
      refine Runs.bind_ensures stepping.attempt ?_
      cases result with
      | error cause =>
          dsimp only
          split
          next fatal =>
            refine (runs_fail _ _).ensures (stops rfl ⟨by simp, fun other same => ?_⟩)
            cases same
            exact fatal
          next => exact goesOn rfl _
      | ok step =>
          cases step with
          | packet picture =>
              have queued := stepped.code (after.coded ++ [picture])
              have soundQueued := soundAfter.withCoded (after.coded ++ [picture])
              refine Runs.bind_ensures (runs_modify _ _)
                ((ih first soundQueued drainingAfter queued).mono ?_)
              rintro result last ⟨soundLast, ⟨produced, courseLast, same⟩, drains⟩
              refine ⟨soundLast, ⟨picture :: produced, ?_, ?_⟩, drains⟩
              · rw [List.append_cons]
                exact courseLast
              · rw [same, ← keeps.coded, List.append_assoc]
                rfl
          | endOfStream =>
              refine (runs_pure _ _).ensures (stops rfl ⟨fun _ _ => ?_, by simp⟩)
              have alive := strode.alive_of_ok
              cases concluded with
              | moved moved =>
                  cases moved with
                  | endOfStream ended empty => exact ⟨alive, soundAfter.exhausted alive ended empty⟩
                  | gained gains => cases gains
          | empty => exact goesOn rfl _
          | busy => exact goesOn rfl _
          | needInput =>
              refine Runs.bind_ensures (runs_get _) ?_
              -- the stream has not ended yet, or the step would have said so
              have further : after.canProgress = true := by
                cases concluded with
                | moved moved =>
                    cases moved with
                    | needInput open_ => simp [canProgress, drainingAfter, open_]
                    | gained gains => cases gains
              rw [if_pos further]
              exact goesOn rfl _

def Passes {α : Type} (result : Except EncodeError α) : Prop :=
  ∀ cause, result = .error cause → cause.isFatal = false

instance {α : Type} (result : Except EncodeError α) : Decidable (Passes result) :=
  match result with
  | .ok _ => isTrue fun _ failed => by cases failed
  | .error cause => decidable_of_iff (cause.isFatal = false)
      ⟨fun mild _ failed => by cases failed; exact mild, fun passes => passes cause rfl⟩

theorem drain_course (sound : encoder.Sound ledger)
    (course : Course progress start accepted packets encoder) :
    Ensures drain encoder fun result after => after.Sound ledger ∧
      Brings progress start accepted packets encoder [] after ∧
      (after.failed = true ∨ after.Exhausted) ∧
      (Passes result → after.failed = false ∧ after.Exhausted) := by
  refine Runs.bind_ensures (runs_modify _ _) (Runs.bind_ensures (runs_get _)
    (((drainWithin_course none _ sound.drains rfl course.drain).and
      (drainWithin_ok _ sound.drains rfl (work_lt_stepLimit _) (by simp))).bind ?_ ?_))
  · rintro (_ | _ | cause) after ⟨⟨soundAfter, brings, drains⟩, drained⟩
    · exact absurd rfl drained.finishes
    · have finished := drains.finished none rfl
      exact (runs_pure _ _).ensures ⟨soundAfter, brings, Or.inr finished.2, fun _ => finished⟩
    · have finished := drains.finished (some cause) rfl
      exact (runs_fail _ _).ensures ⟨soundAfter, brings, Or.inr finished.2, fun _ => finished⟩
  · rintro cause after ⟨⟨soundAfter, brings, drains⟩, drained⟩
    refine ⟨soundAfter, brings, Or.inl (drained.error cause rfl).2, fun passes => ?_⟩
    cases (drains.fatal cause rfl).symm.trans (passes cause rfl)

theorem Exhausted.release_runs (exhausted : encoder.Exhausted) :
    Runs release encoder (.ok ()) encoder := by
  have waiting : { encoder with waiting := [] } = encoder := by rw [← exhausted.waiting]
  refine (runs_get _).bind ?_
  rw [exhausted.queue]
  refine (runs_pure _ _).bind ((onWindow_runs (Retirement.clearAll_empty exhausted.window)).bind
    ((runs_forM_nil _ _).bind ?_))
  have last := runs_modify (fun encoder : Encoder B => { encoder with waiting := [] }) encoder
  rwa [waiting] at last

theorem Exhausted.step_runs (exhausted : encoder.Exhausted) (alive : encoder.failed = false)
    (room : 0 < encoder.queue.capacity) (mode : BlockingMode) :
    Runs (step mode) encoder (.ok .endOfStream) encoder := by
  have notFull : encoder.queue.isFull = false := by
    rw [OutputQueue.isFull, OutputQueue.size, exhausted.queue]
    exact decide_eq_false (Nat.not_le.mpr room)
  have goesOn : encoder.stalled mode = false := by simp [stalled, notFull]
  have taking : Runs takeNext encoder (.ok ()) encoder := by
    refine (runs_get _).bind ?_
    simp only [exhausted.waiting, exhausted.ended, Bool.not_true, Bool.and_false,
      Bool.false_eq_true, if_false]
    exact runs_pure _ _
  have empty : encoder.window.isEmpty = true :=
    Window.isEmpty_iff.mpr exhausted.window
  have advancing : Runs (advanceStep mode) encoder (.ok .endOfStream) encoder := by
    refine taking.bind ((runs_get _).bind ?_)
    rw [empty, exhausted.ended]
    exact runs_pure _ _
  have trying : Runs (tryStep mode) encoder (.ok .endOfStream) encoder := by
    refine (runs_get _).bind ?_
    rw [goesOn]
    exact advancing
  refine (runs_get _).bind ?_
  rw [alive]
  exact trying.attempt.bind (runs_pure _ _)

theorem Exhausted.nextPacket_runs (exhausted : encoder.Exhausted) (alive : encoder.failed = false)
    (room : 0 < encoder.queue.capacity) (mode : BlockingMode) :
    Runs (nextPacket mode) encoder (.ok (encoder.coded.head?.elim .endOfStream Received.packet))
      { encoder with coded := encoder.coded.tail } := by
  cases codedEq : encoder.coded with
  | cons packet rest =>
      refine (runs_get _).bind ?_
      rw [codedEq]
      exact (runs_modify _ _).bind (runs_pure _ _)
  | nil =>
      have same : { encoder with coded := [] } = encoder := by rw [← codedEq]
      have stepping : ∀ limit, Runs (stepsWithin mode (limit + 1)) encoder (.ok (some .endOfStream))
          encoder := fun _ => (exhausted.step_runs alive room _).bind (runs_pure _ _)
      rw [List.tail_nil, same]
      refine (runs_get _).bind ?_
      rw [codedEq]
      exact (stepping _).bind (runs_require rfl _ _)

theorem Exhausted.receive_runs (exhausted : encoder.Exhausted) (alive : encoder.failed = false)
    (room : 0 < encoder.queue.capacity) :
    Runs (perform .receive) encoder
      (.ok (encoder.coded.head?.elim .endOfStream Answer.packet))
      { encoder with coded := encoder.coded.tail } := by
  have next := exhausted.nextPacket_runs alive room encoder.mode
  cases codedEq : encoder.coded with
  | cons packet rest =>
      rw [codedEq] at next
      exact ((runs_get _).bind next).bind (runs_pure _ _)
  | nil =>
      rw [codedEq] at next
      exact ((runs_get _).bind next).bind (runs_pure _ _)

theorem release_course (sound : encoder.Sound ledger)
    (course : Course progress start accepted packets encoder)
    (finished : encoder.failed = true ∨ encoder.Exhausted) :
    Ensures release encoder fun result after => result = .ok () ∧ after.Sound ledger ∧
      after.coded = encoder.coded ∧ Course progress start accepted packets after ∧
      (after.failed = true ∨ after.Exhausted) := by
  rcases finished with failed | exhausted
  · obtain ⟨window, backend, failures, runs, ⟨empty, winds⟩, records⟩ := release_ok sound
    exact runs.ensures ⟨rfl, Or.inr ⟨empty, rfl, rfl, Or.inl failed, records⟩, rfl,
      course.abandon failed empty winds, Or.inl failed⟩
  · exact exhausted.release_runs.ensures ⟨rfl, sound, rfl, course, Or.inr exhausted⟩

theorem close_course (sound : encoder.Sound ledger)
    (course : Course progress start accepted packets encoder) :
    Ensures close encoder fun _ after => after.Sound ledger ∧
      Brings progress start accepted packets encoder [] after ∧
      (after.failed = true ∨ after.Exhausted) := by
  have closing : ∀ {result : Except EncodeError Unit} {after : Encoder B}, after.Sound ledger →
      Brings progress start accepted packets encoder [] after →
      after.failed = true ∨ after.Exhausted →
        Ensures (do release; Action.ofExcept result) after fun result last =>
          last.Sound ledger ∧ Brings progress start accepted packets encoder [] last ∧
            (last.failed = true ∨ last.Exhausted) := by
    rintro _ after soundAfter ⟨produced, courseAfter, same⟩ finished
    obtain ⟨_, last, releasing, rfl, soundLast, codedLast, courseLast, ends⟩ :=
      release_course soundAfter courseAfter finished
    exact Runs.bind_ensures releasing ((runs_ofExcept _ _).ensures
      ⟨soundLast, ⟨produced, courseLast, by rw [codedLast, same]⟩, ends⟩)
  refine Runs.bind_ensures (runs_get _) ?_
  by_cases done : (encoder.failed || (encoder.scheduler.endOfStream && encoder.window.isEmpty)) = true
  · rw [if_pos done]
    refine Runs.bind_ensures (runs_pure _ _) (closing sound (course.brings rfl) ?_)
    rw [Bool.or_eq_true, Bool.and_eq_true] at done
    cases alive : encoder.failed with
    | true => exact Or.inl rfl
    | false =>
        obtain ⟨ended, empty⟩ := done.resolve_left (by simp [alive])
        refine Or.inr (sound.exhausted alive ended ?_)
        exact Window.isEmpty_iff.mp empty
  · rw [if_neg done]
    obtain ⟨result, after, draining, soundAfter, brings, finished, _⟩ := drain_course sound course
    exact Runs.bind_ensures draining.attempt (closing soundAfter brings finished)

def unlessRefused {α : Type} (frame : Frame) : Except EncodeError α → List Frame
  | .ok _ => [frame]
  | .error _ => []

theorem encode_course (sound : encoder.Sound ledger)
    (course : Course progress start accepted packets encoder) (frame : Frame) :
    Ensures (encode frame) encoder fun result after => after.Sound ledger ∧
      Brings progress start (accepted ++ unlessRefused frame result) packets encoder [] after := by
  have same : Course progress start (accepted ++ []) packets encoder := by
    rwa [List.append_nil]
  have growing : Ensures (encode frame) encoder fun result after =>
      Brings progress start (accepted ++ unlessRefused frame result) packets encoder [] after := by
    refine Runs.bind_ensures (runs_get _) ?_
    cases alive : encoder.failed with
    | true => exact (runs_fail _ _).ensures (same.brings rfl)
    | false =>
        cases goesOn : encoder.draining with
        | true => exact (runs_fail _ _).ensures (same.brings rfl)
        | false => exact (runs_modify _ _).ensures ((course.accept frame alive goesOn).brings rfl)
  exact ((encode_ok sound frame).and growing).mono fun _ _ both => ⟨both.1.sound, both.2⟩

/-! Calls. -/

def acceptedBy : Call → Except EncodeError Answer → List Frame
  | .encode frame, answer => unlessRefused frame answer
  | _, _ => []

def handedBy : Except EncodeError Answer → List CodedPicture
  | .ok (.packet picture) => [picture]
  | _ => []

theorem poll_course (sound : encoder.Sound ledger)
    (course : Course progress start accepted packets encoder) :
    Ensures poll encoder fun result after => after.Sound ledger ∧
      Brings progress start accepted packets encoder (result.toOption.join.toList) after := by
  refine (nextPacket_course .nonBlocking sound course).bind ?_ fun _ _ => id
  rintro (_ | _ | _) after both <;> exact (runs_pure _ _).ensures both

theorem perform_course (sound : encoder.Sound ledger)
    (course : Course progress start accepted packets encoder) (call : Call) :
    Ensures (perform call) encoder fun answer after => after.Sound ledger ∧
      Brings progress start (accepted ++ acceptedBy call answer) packets encoder (handedBy answer)
        after ∧
      (call = .drain → Passes answer → after.failed = false ∧ after.Exhausted) := by
  have none : ∀ {handed : List CodedPicture} {after : Encoder B},
      Brings progress start accepted packets encoder handed after →
      Brings progress start (accepted ++ []) packets encoder handed after := by
    intro handed after brings
    rwa [List.append_nil]
  cases call with
  | encode frame =>
      refine (encode_course sound course frame).bind ?_ ?_
      · rintro _ after ⟨soundAfter, brings⟩
        exact (runs_pure _ _).ensures ⟨soundAfter, brings, by simp⟩
      · rintro cause after ⟨soundAfter, brings⟩
        exact ⟨soundAfter, brings, by simp⟩
  | poll =>
      refine (poll_course sound course).bind ?_ ?_
      · rintro (_ | picture) after ⟨soundAfter, brings⟩ <;>
          exact (runs_pure _ _).ensures ⟨soundAfter, none brings, by simp⟩
      · exact fun _ _ both => ⟨both.1, none both.2, by simp⟩
  | receive =>
      refine (Runs.bind_ensures (runs_get _) (nextPacket_course encoder.mode sound course)).bind ?_ ?_
      · rintro (_ | _ | _) after ⟨soundAfter, brings⟩ <;>
          exact (runs_pure _ _).ensures ⟨soundAfter, none brings, by simp⟩
      · exact fun _ _ both => ⟨both.1, none both.2, by simp⟩
  | drain =>
      refine (drain_course sound course).bind ?_ ?_
      · rintro _ after ⟨soundAfter, brings, _, finished⟩
        exact (runs_pure _ _).ensures
          ⟨soundAfter, none brings, fun _ _ => finished (by simp [Passes])⟩
      · rintro cause after ⟨soundAfter, brings, _, finished⟩
        refine ⟨soundAfter, none brings, fun _ passes => finished fun other same => ?_⟩
        cases same
        exact passes cause rfl
  | close =>
      refine (close_course sound course).bind ?_ ?_
      · rintro _ after ⟨soundAfter, brings, _⟩
        exact (runs_pure _ _).ensures ⟨soundAfter, none brings, by simp⟩
      · exact fun _ _ both => ⟨both.1, none both.2.1, by simp⟩

/-- The calls of a client and their answers, from a session on. -/
inductive Calls (progress : B.State → B.State → Prop) (start : Encoder B) :
    List (Call × Except EncodeError Answer) → Encoder B → Prop where
  | none : Calls progress start [] start
  | call {trail : List (Call × Except EncodeError Answer)} {encoder : Encoder B}
      (calls : Calls progress start trail encoder) (call : Call) :
      Calls progress start (trail ++ [(call, (perform call encoder).result)])
        (perform call encoder).state
  /-- The backend gets further on its own. -/
  | progress {trail : List (Call × Except EncodeError Answer)} {encoder : Encoder B}
      {backend : B.State} (calls : Calls progress start trail encoder)
      (moved : progress encoder.backend backend) :
      Calls progress start trail { encoder with backend }

def submissions (trail : List (Call × Except EncodeError Answer)) : List Frame :=
  trail.flatMap fun entry => acceptedBy entry.1 entry.2

def deliveries (trail : List (Call × Except EncodeError Answer)) : List CodedPicture :=
  trail.flatMap fun entry => handedBy entry.2

theorem Calls.course {trail : List (Call × Except EncodeError Answer)}
    (calls : Calls progress start trail encoder) (sound : start.Sound (Ledger.blank B))
    (empty : start.coded = []) :
    encoder.Sound (Ledger.blank B) ∧
      Course progress start (submissions trail) (deliveries trail ++ encoder.coded) encoder := by
  induction calls with
  | none =>
      rw [empty]
      exact ⟨sound, .start⟩
  | call _ call ih =>
      obtain ⟨answer, after, runs, soundAfter, ⟨produced, course, same⟩, _⟩ :=
        perform_course ih.1 ih.2 call
      rw [runs.state_eq, runs.result_eq]
      refine ⟨soundAfter, ?_⟩
      simp only [submissions, deliveries, List.flatMap_append, List.flatMap_singleton] at course ⊢
      rwa [List.append_assoc, same, ← List.append_assoc]
  | progress _ moved ih => exact ⟨ih.1.progressed fun _ => trivial, ih.2.progress moved⟩

theorem Calls.receives {trail : List (Call × Except EncodeError Answer)}
    (calls : Calls progress start trail encoder) (exhausted : start.Exhausted)
    (alive : start.failed = false) (room : 0 < start.queue.capacity)
    (receives : ∀ entry ∈ trail, entry.1 = .receive) :
    (encoder.Exhausted ∧ encoder.failed = false ∧ 0 < encoder.queue.capacity ∧
      encoder.coded = start.coded.drop trail.length) ∧
    trail.map Prod.snd = (List.range trail.length).map fun index =>
      .ok (start.coded[index]?.elim .endOfStream Answer.packet) := by
  induction calls with
  | none => exact ⟨⟨exhausted, alive, room, rfl⟩, rfl⟩
  | progress calls moved ih =>
      obtain ⟨⟨ended, aliveNow, roomNow, codedEq⟩, answers⟩ := ih receives
      exact ⟨⟨⟨ended.window, ended.queue, ended.waiting, ended.ended, ended.draining⟩, aliveNow,
        roomNow, codedEq⟩, answers⟩
  | call calls call ih =>
      obtain ⟨⟨ended, aliveNow, roomNow, codedEq⟩, answers⟩ :=
        ih fun entry member => receives entry (List.mem_append_left _ member)
      have asks := receives _ (List.mem_append_right _ (List.mem_singleton_self _))
      dsimp only at asks
      subst asks
      have runs := ended.receive_runs aliveNow roomNow
      rw [runs.result_eq, runs.state_eq, codedEq, List.head?_drop, List.tail_drop]
      refine ⟨⟨⟨ended.window, ended.queue, ended.waiting, ended.ended, ended.draining⟩, aliveNow,
        roomNow, by rw [List.length_append, List.length_singleton]⟩, ?_⟩
      rw [List.map_append, answers, List.length_append, List.length_singleton, List.range_succ,
        List.map_append]
      rfl

theorem Reachable.course {start : B.State} (reachable : Reachable start progress encoder) :
    ∃ config mode gop accepted packets, config.Valid ∧
      Gop.ofConfig? config (B.capabilities start) = some gop ∧
      Course progress (opened start gop config mode) accepted packets encoder := by
  induction reachable with
  | created config mode accepts =>
      obtain ⟨valid, gop, made, rfl⟩ := create_eq_ok accepts
      exact ⟨config, mode, gop, [], [], valid, made, .start⟩
  | called call before ih =>
      obtain ⟨config, mode, gop, accepted, packets, valid, made, course⟩ := ih
      obtain ⟨_, after, runs, _, ⟨produced, courseAfter, _⟩, _⟩ :=
        perform_course before.invariant course call
      rw [runs.state_eq]
      exact ⟨config, mode, gop, _, _, valid, made, courseAfter⟩
  | stepped mode before ih =>
      obtain ⟨config, opening, gop, accepted, packets, valid, made, course⟩ := ih
      obtain ⟨_, after, runs, _, _, _, strode⟩ := step_ok before.invariant mode
      rw [runs.state_eq]
      exact ⟨config, opening, gop, _, _, valid, made, course.step before.invariant strode⟩
  | ending _ ih =>
      obtain ⟨config, mode, gop, accepted, packets, valid, made, course⟩ := ih
      exact ⟨config, mode, gop, _, _, valid, made, course.drain⟩
  | queued picture _ ih =>
      obtain ⟨config, mode, gop, accepted, packets, valid, made, course⟩ := ih
      exact ⟨config, mode, gop, _, _, valid, made, course.code _⟩
  | progressed moved _ ih =>
      obtain ⟨config, mode, gop, accepted, packets, valid, made, course⟩ := ih
      exact ⟨config, mode, gop, _, _, valid, made, course.progress moved⟩

end VideoSchedule.Encoder

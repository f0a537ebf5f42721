import VideoSchedule.Proofs.Draining

/-!
What a fatal error leaves. A call that fails fatally leaves a session that has failed, and such a
session asks nothing of its backend any more: it hands out the packets that are queued, and gives back
what is still live when it is closed or dropped.
-/

namespace VideoSchedule.Encoder

open VideoSchedule.Action Window Recorded

section

variable {B : Backend} {ledger : Ledger B} {encoder before after : Encoder B} {mode : BlockingMode}
  {cause : EncodeError}

/-! A call that fails fatally. -/

theorem Loop.failed {goesOn : Except EncodeError Step → Encoder B → Bool}
    {keep : Except EncodeError Step → Encoder B → Encoder B}
    {outcomes earlier : List (Except EncodeError Step)}
    (loop : Loop mode goesOn keep before outcomes after) (sound : before.Sound ledger)
    (keeps : ∀ outcome {encoder : Encoder B}, encoder.Sound ledger →
      (keep outcome encoder).Sound ledger ∧ (keep outcome encoder).failed = encoder.failed)
    (ends : outcomes = earlier ++ [.error cause]) (fatal : cause.isFatal = true) :
    after.failed = true := by
  induction loop generalizing earlier with
  | @last before after outcome result state stops =>
      obtain ⟨other, next, runs, soundAfter, _, concluded, _⟩ := step_ok sound mode
      rw [runs.result_eq] at result
      rw [runs.state_eq] at state
      subst result state
      have isLast : earlier = [] := by
        cases earlier with
        | nil => rfl
        | cons first rest => simp at ends
      subst isLast
      simp only [List.nil_append, List.cons.injEq, and_true] at ends
      subst ends
      rw [(keeps _ soundAfter).2]
      cases concluded with
      | moved _ survives => simp [survives cause rfl] at fatal
      | fatal _ _ failed => exact failed
  | @again before middle _ outcome _ result state _ loop ih =>
      obtain ⟨other, next, runs, soundAfter, _⟩ := step_ok sound mode
      rw [runs.state_eq] at state
      subst state
      cases earlier with
      | nil =>
          simp only [List.nil_append, List.cons.injEq] at ends
          rw [ends.2] at loop
          cases loop
      | cons first rest =>
          simp only [List.cons_append, List.cons.injEq] at ends
          exact ih (keeps _ soundAfter).1 ends.2

/-- An error that is fatal is one that the session did not survive. -/
def Poisons {α : Type} (result : Except EncodeError α) (after : Encoder B) : Prop :=
  ∀ cause, result = .error cause → cause.isFatal = true → after.failed = true

theorem nextPacket_poisons (sound : encoder.Sound ledger) (mode : BlockingMode) :
    Ensures (nextPacket mode) encoder Poisons := by
  obtain ⟨outcomes, result, after, searches, _, runs⟩ := nextPacket_searches sound mode
  apply runs.ensures
  intro cause failing fatal
  cases searches with
  | queued => cases failing
  | @steps earlier outcome _ coded loop =>
      have same : outcome = .error cause := by
        cases outcome with
        | error other => simpa [answered] using failing
        | ok step => cases step <;> simp [answered] at failing
      subst same
      exact loop.failed sound (fun _ _ soundHere => ⟨soundHere, rfl⟩) rfl fatal

theorem drain_poisons (sound : encoder.Sound ledger) : Ensures drain encoder Poisons := by
  obtain ⟨outcomes, result, after, loop, _, reports, runs⟩ := drain_loop sound
  apply runs.ensures
  intro cause failing fatal
  have queueingKeeps : ∀ outcome {encoder : Encoder B}, encoder.Sound ledger →
      (queueing outcome encoder).Sound ledger ∧ (queueing outcome encoder).failed = encoder.failed := by
    intro outcome encoder soundHere
    obtain ⟨coded, queued⟩ := queueing_eq outcome encoder
    rw [queued]
    exact ⟨soundHere.withCoded coded, rfl⟩
  by_cases mild : ∀ other, .error other ∈ outcomes → other.isFatal = false
  · have passes := reports.passes mild cause failing
    simp [passes] at fatal
  · simp only [not_forall, Bool.not_eq_false] at mild
    obtain ⟨other, member, isFatal⟩ := mild
    obtain ⟨earlier, later, split⟩ := List.append_of_mem member
    obtain ⟨none, _⟩ := reports.fatal earlier other later split isFatal
    rw [none] at split
    exact loop.failed sound.drains queueingKeeps split isFatal

theorem release_keeps (sound : encoder.Sound ledger) : ∃ after, Runs release encoder (.ok ()) after ∧
    after.failed = encoder.failed := by
  obtain ⟨window, backend, failures, runs, _⟩ := release_ok sound
  exact ⟨_, runs, rfl⟩

theorem close_poisons (sound : encoder.Sound ledger) : Ensures close encoder Poisons := by
  refine Runs.bind_ensures (runs_get _) ?_
  by_cases done : (encoder.failed || (encoder.scheduler.endOfStream && encoder.window.isEmpty)) = true
  · rw [if_pos done]
    obtain ⟨after, releasing, _⟩ := release_keeps sound
    refine Runs.bind_ensures (runs_pure _ _) (Runs.bind_ensures releasing ?_)
    exact (runs_ofExcept _ _).ensures fun cause failing => by cases failing
  · rw [if_neg done]
    obtain ⟨result, middle, draining, ⟨safe, _⟩, poisons⟩ := (drain_ok sound).and (drain_poisons sound)
    obtain ⟨after, releasing, kept⟩ := release_keeps safe.sound
    refine Runs.bind_ensures draining.attempt (Runs.bind_ensures releasing ?_)
    apply (runs_ofExcept _ _).ensures
    intro cause failing fatal
    rw [kept]
    exact poisons cause failing fatal

theorem perform_poisons (sound : encoder.Sound ledger) (call : Call) :
    Ensures (perform call) encoder Poisons := by
  have stop : ∀ {α : Type} {cause : EncodeError} {after : Encoder B},
      Poisons (.error cause : Except EncodeError α) after →
        Poisons (.error cause : Except EncodeError Answer) after := by
    intro α cause after poisons other failing
    cases failing
    exact poisons cause rfl
  have fine : ∀ (answer : Answer) (after : Encoder B), Poisons (.ok answer) after := by
    intro answer after cause failing
    cases failing
  cases call with
  | encode frame =>
      have encoding : Ensures (encode frame) encoder Poisons := by
        refine Runs.bind_ensures (runs_get _) ?_
        cases failed : encoder.failed with
        | true => exact (runs_fail _ _).ensures fun _ _ _ => failed
        | false =>
            cases encoder.draining with
            | true =>
                apply (runs_fail _ _).ensures
                intro cause failing fatal
                cases failing
                cases fatal
            | false => exact (runs_modify _ _).ensures fun _ failing => by cases failing
      exact encoding.bind (fun _ _ _ => (runs_pure _ _).ensures (fine _ _)) fun _ _ => stop
  | poll =>
      have polling : Ensures poll encoder Poisons := by
        refine (nextPacket_poisons sound .nonBlocking).bind (fun received after _ => ?_)
          fun _ _ poisons => ?_
        · cases received <;> exact (runs_pure _ _).ensures fun _ failing => by cases failing
        · intro other failing
          cases failing
          exact poisons _ rfl
      refine polling.bind (fun found after _ => ?_) fun _ _ => stop
      cases found <;> exact (runs_pure _ _).ensures (fine _ _)
  | receive =>
      refine (Runs.bind_ensures (runs_get _) (nextPacket_poisons sound encoder.mode)).bind
        (fun received after _ => ?_) fun _ _ => stop
      cases received <;> exact (runs_pure _ _).ensures (fine _ _)
  | drain =>
      exact (drain_poisons sound).bind (fun _ _ _ => (runs_pure _ _).ensures (fine _ _)) fun _ _ => stop
  | close =>
      exact (close_poisons sound).bind (fun _ _ _ => (runs_pure _ _).ensures (fine _ _)) fun _ _ => stop

/-! A session that has failed. -/

/-- What a failed session answers, with some packets queued. -/
def answerOnceFailed (coded : List CodedPicture) : Call → Except EncodeError Answer
  | .encode _ | .drain => .error .sessionFailed
  | .poll | .receive => coded.head?.elim (.error .sessionFailed) fun packet => .ok (.packet packet)
  | .close => .ok .done

/-- The packets that are queued in a failed session after a call. -/
def codedOnceFailed (coded : List CodedPicture) : Call → List CodedPicture
  | .poll | .receive => coded.tail
  | _ => coded

def answersOnceFailed (coded : List CodedPicture) : List Call → List (Except EncodeError Answer)
  | [] => []
  | call :: rest =>
      answerOnceFailed coded call :: answersOnceFailed (codedOnceFailed coded call) rest

theorem answersOnceFailed_concat (coded : List CodedPicture) (calls : List Call) (call : Call) :
    answersOnceFailed coded (calls ++ [call]) = answersOnceFailed coded calls ++
      [answerOnceFailed (calls.foldl codedOnceFailed coded) call] := by
  induction calls generalizing coded with
  | nil => rfl
  | cons first rest ih => simp [answersOnceFailed, ih]

theorem step_failed (failed : encoder.failed = true) (mode : BlockingMode) :
    Runs (step mode) encoder (.error .sessionFailed) encoder := by
  refine (runs_get _).bind ?_
  rw [if_pos failed]
  exact runs_fail _ _

theorem nextPacket_failed (failed : encoder.failed = true) (mode : BlockingMode) :
    Runs (nextPacket mode) encoder
      (encoder.coded.head?.elim (.error .sessionFailed) fun packet => .ok (.packet packet))
      { encoder with coded := encoder.coded.tail } := by
  cases codedEq : encoder.coded with
  | cons packet rest =>
      refine (runs_get _).bind ?_
      rw [codedEq]
      exact (runs_modify _ _).bind (runs_pure _ _)
  | nil =>
      have same : { encoder with coded := [] } = encoder := by rw [← codedEq]
      rw [List.tail_nil, same]
      refine (runs_get _).bind ?_
      rw [codedEq]
      exact Runs.bind_error (Runs.bind_error (step_failed failed mode))

theorem drain_failed (failed : encoder.failed = true) :
    Runs drain encoder (.error .sessionFailed) { encoder with draining := true } := by
  have failedHere : ({ encoder with draining := true } : Encoder B).failed = true := failed
  refine (runs_modify _ _).bind ((runs_get _).bind (Runs.bind_error ?_))
  refine (step_failed failedHere .blocking).attempt.bind ?_
  exact runs_fail _ _

theorem perform_failed (failed : encoder.failed = true) {call : Call} (opens : call ≠ .close) :
    ∃ draining, Runs (perform call) encoder (answerOnceFailed encoder.coded call)
      { encoder with draining, coded := codedOnceFailed encoder.coded call } := by
  cases call with
  | encode frame =>
      have encoding : Runs (encode frame) encoder (.error .sessionFailed) encoder := by
        refine (runs_get _).bind ?_
        rw [if_pos failed]
        exact runs_fail _ _
      exact ⟨encoder.draining, Runs.bind_error encoding⟩
  | drain => exact ⟨true, Runs.bind_error (drain_failed failed)⟩
  | close => exact absurd rfl opens
  | receive =>
      have asking : Runs receive encoder _ _ :=
        (runs_get encoder).bind (nextPacket_failed failed encoder.mode)
      refine ⟨encoder.draining, ?_⟩
      rw [answerOnceFailed, codedOnceFailed]
      cases head : encoder.coded.head? with
      | none =>
          rw [head] at asking
          exact Runs.bind_error asking
      | some packet =>
          rw [head] at asking
          exact asking.bind (runs_pure _ _)
  | poll =>
      have asking := nextPacket_failed failed .nonBlocking
      refine ⟨encoder.draining, ?_⟩
      rw [answerOnceFailed, codedOnceFailed]
      cases head : encoder.coded.head? with
      | none =>
          rw [head] at asking
          exact Runs.bind_error (Runs.bind_error asking)
      | some packet =>
          rw [head] at asking
          have polling : Runs poll encoder (.ok (some packet))
              { encoder with coded := encoder.coded.tail } := asking.bind (runs_pure _ _)
          exact polling.bind (runs_pure _ _)

theorem close_failed (failed : encoder.failed = true)
    (releasing : Runs release encoder (.ok ()) after) :
    Runs (perform .close) encoder (.ok .done) after := by
  have closing : Runs close encoder (.ok ()) after := by
    refine (runs_get _).bind ?_
    rw [failed]
    exact (runs_pure _ _).bind (releasing.bind (runs_ofExcept _ _))
  exact closing.bind (runs_pure _ _)

theorem close_empties (sound : encoder.Sound ledger) :
    Ensures close encoder fun _ after => after.window.handles = [] := by
  have releases : ∀ {result : Except EncodeError Unit} {middle : Encoder B}, middle.Sound ledger →
      Ensures (do release; Action.ofExcept result) middle fun _ after => after.window.handles = [] := by
    intro result middle soundHere
    obtain ⟨window, backend, failures, runs, ⟨empty, _⟩, _⟩ := release_ok soundHere
    exact Runs.bind_ensures runs ((runs_ofExcept _ _).ensures empty)
  refine Runs.bind_ensures (runs_get _) ?_
  split
  · exact Runs.bind_ensures (runs_pure _ _) (releases sound)
  · obtain ⟨result, middle, draining, safe, _⟩ := drain_ok sound
    exact Runs.bind_ensures draining.attempt (releases safe.sound)

end

section

variable {B : Backend} {start : Recorded B} {encoder before middle after last : Encoder B.recorded}

/-! What a backend gets back. -/

def Winding {ι : Type} : BackendCall ι → Prop
  | .sync _ _ | .free _ => True
  | .alloc _ _ | .issue _ _ | .output _ _ => False

theorem winds_calls {first second : B.recorded.State} (winds : Winds first second) :
    ∃ added, second.calls = added ++ first.calls ∧ ∀ call ∈ added, Winding call := by
  induction winds with
  | refl => exact ⟨[], rfl, by simp⟩
  | sync _ promise ih =>
      obtain ⟨added, calls, winding⟩ := ih
      exact ⟨_ :: added, congrArg _ calls, by simpa [Winding] using winding⟩
  | free _ image ih =>
      obtain ⟨added, calls, winding⟩ := ih
      exact ⟨.free image :: added, congrArg _ calls, by simpa [Winding] using winding⟩

theorem Sound.standing (sound : encoder.Sound (Ledger.custody B)) :
    Live encoder.backend.calls encoder.window.images := by
  rcases sound with running | ended
  · obtain ⟨_, keeps, _⟩ := running.core.records
    exact keeps.standing
  · rw [images_eq_nil ended.window]
    exact ended.records.standing

/-- The backend got these images back since, each as often as listed, and was asked for nothing. -/
def GivesBack (before after : Encoder B.recorded) (freed : List B.Image) : Prop :=
  ∃ added, after.backend.calls = added ++ before.backend.calls ∧
    (∀ call ∈ added, Winding call) ∧ (freedImages added).Perm freed

theorem GivesBack.refl (same : after.backend.calls = before.backend.calls) :
    GivesBack before after [] := ⟨[], same, by simp, by rfl⟩

theorem GivesBack.trans {first second : List B.Image} (gives : GivesBack before middle first)
    (next : GivesBack middle after second) : GivesBack before after (first ++ second) := by
  obtain ⟨added, calls, winding, freed⟩ := gives
  obtain ⟨more, callsAfter, windingAfter, freedAfter⟩ := next
  refine ⟨more ++ added, by rw [callsAfter, calls, List.append_assoc], ?_, ?_⟩
  · intro call member
    rcases List.mem_append.mp member with new | old
    · exact windingAfter call new
    · exact winding call old
  · have both := (freedAfter.append freed).trans List.perm_append_comm
    rwa [freedImages, List.filterMap_append]

theorem release_gives_back (sound : encoder.Sound (Ledger.custody B)) :
    ∃ after, Runs release encoder (.ok ()) after ∧ GivesBack encoder after encoder.window.images ∧
      after.window.images = [] ∧ after.failed = encoder.failed ∧ after.coded = encoder.coded := by
  obtain ⟨window, backend, failures, runs, ⟨empty, winds⟩, keeps⟩ := release_ok sound
  obtain ⟨added, calls, winding⟩ := winds_calls winds
  refine ⟨_, runs, ⟨added, calls, winding, ?_⟩, images_eq_nil empty, rfl, rfl⟩
  have unasked : allocatedImages added = [] := by
    rw [allocatedImages, List.filterMap_eq_nil_iff]
    intro call member
    have winds := winding call member
    cases call with
    | alloc | issue | output => cases winds
    | sync | free => rfl
  have allocated : allocatedImages (added ++ encoder.backend.calls) =
      allocatedImages encoder.backend.calls := by
    rw [allocatedImages, List.filterMap_append, ← allocatedImages, unasked]
    rfl
  have given : freedImages (added ++ encoder.backend.calls) =
      freedImages added ++ freedImages encoder.backend.calls := List.filterMap_append ..
  have earlier := sound.standing
  have later := keeps.standing
  rw [Live, calls, allocated, given, List.append_nil] at later
  have same := later.symm.trans (earlier.trans List.perm_append_comm)
  exact (List.perm_append_right_iff _).mp same

/-- A failed session after some calls. -/
structure Poisoned (before : Encoder B.recorded) (calls : List Call) (after : Encoder B.recorded) :
    Prop where
  failed : after.failed = true
  coded : after.coded = calls.foldl codedOnceFailed before.coded
  images : after.window.images = if .close ∈ calls then [] else before.window.images
  backend : GivesBack before after (if .close ∈ calls then before.window.images else [])

theorem Poisoned.perform {calls : List Call} (poisoned : Poisoned before calls middle)
    (sound : middle.Sound (Ledger.custody B)) (call : Call) :
    ∃ after, Runs (perform call) middle
        (answerOnceFailed (calls.foldl codedOnceFailed before.coded) call) after ∧
      Poisoned before (calls ++ [call]) after := by
  rw [← poisoned.coded]
  by_cases closes : call = .close
  · subst closes
    obtain ⟨after, releasing, gives, empty, failed, coded⟩ := release_gives_back sound
    refine ⟨after, close_failed poisoned.failed releasing, failed.trans poisoned.failed, ?_, ?_, ?_⟩
    · rw [coded, poisoned.coded, List.foldl_append]
      rfl
    · simpa using empty
    · have both := poisoned.backend.trans gives
      rw [poisoned.images] at both
      simp only [List.mem_append, List.mem_singleton, or_true, if_true]
      by_cases closed : Call.close ∈ calls
      · simpa [closed] using both
      · simpa [closed] using both
  · obtain ⟨draining, runs⟩ := perform_failed poisoned.failed closes
    have same : Call.close ∈ calls ++ [call] ↔ Call.close ∈ calls := by
      simp [Ne.symm closes]
    refine ⟨_, runs, poisoned.failed, ?_, ?_, ?_⟩
    · rw [List.foldl_append, ← poisoned.coded]
      rfl
    · simp only [same]
      exact poisoned.images
    · simp only [same]
      exact poisoned.backend

theorem Calls.poisoned {trail : List (Call × Except EncodeError Answer)}
    (calls : Calls SameCalls after trail last) (nothing : start.calls = [])
    (reachable : Reachable (B := B.recorded) start SameCalls after) (failed : after.failed = true) :
    trail.map Prod.snd = answersOnceFailed after.coded (trail.map Prod.fst) ∧
      Poisoned after (trail.map Prod.fst) last := by
  induction calls with
  | none => exact ⟨rfl, failed, rfl, rfl, .refl rfl⟩
  | @call trail encoder calls call ih =>
      obtain ⟨answers, poisoned⟩ := ih
      obtain ⟨next, runs, poisonedNext⟩ :=
        poisoned.perform ((calls.reachable reachable).custody nothing) call
      have asked : (trail ++ [(call, (Encoder.perform call encoder).result)]).map Prod.fst =
          trail.map Prod.fst ++ [call] := by simp
      rw [asked, answersOnceFailed_concat, runs.state_eq, List.map_append, answers, runs.result_eq]
      exact ⟨rfl, poisonedNext⟩
  | @progress _ encoder backend _ moved ih =>
      obtain ⟨answers, poisoned⟩ := ih
      have silent : GivesBack encoder { encoder with backend } [] := .refl moved
      refine ⟨answers, poisoned.failed, poisoned.coded, poisoned.images, ?_⟩
      have both := poisoned.backend.trans silent
      rwa [List.append_nil] at both

/-- A fatal error poisons a session. After a call that returned one, no later call asks the backend
for an image, a picture or bytes. Encoding and draining are refused, packets are handed out while there
are some, and closing passes. Every live picture has its image, and the first close gives all of them
back, or the drop does if there was none. A close that fails has given them back itself. -/
theorem Reachable.fatal_poisons (nothing : start.calls = [])
    (reachable : Reachable (B := B.recorded) start SameCalls encoder) {call : Call}
    {cause : EncodeError} (fails : (perform call encoder).result = .error cause)
    (fatal : cause.isFatal = true) (left : (perform call encoder).state = after) :
    after.window.Stocked ∧
    (call = .close → (freedImages after.backend.calls).Perm (allocatedImages after.backend.calls)) ∧
    ∀ trail last, Calls SameCalls after trail last →
      trail.map Prod.snd = answersOnceFailed after.coded (trail.map Prod.fst) ∧
      GivesBack after last (if .close ∈ trail.map Prod.fst then after.window.images else []) ∧
      GivesBack last (release last).state
        (if .close ∈ trail.map Prod.fst then [] else after.window.images) := by
  obtain ⟨result, other, runs, poisons⟩ := perform_poisons reachable.invariant call
  have failed : after.failed = true := by
    rw [← left, runs.state_eq]
    exact poisons cause (runs.result_eq.symm.trans fails) fatal
  have called := Reachable.called call reachable
  rw [left] at called
  refine ⟨(called.custody nothing).stocked, ?_, ?_⟩
  · rintro rfl
    obtain ⟨answer, closed, closing, empty⟩ := close_empties reachable.invariant
    have same : after = closed := by
      rw [← left]
      cases answer with
      | error other =>
          have performing : Runs (perform .close) encoder (.error other) closed :=
            Runs.bind_error closing
          exact performing.state_eq
      | ok _ =>
          have performing : Runs (perform .close) encoder (.ok .done) closed :=
            closing.bind (runs_pure _ _)
          exact performing.state_eq
    have standing := (called.custody nothing).standing
    rw [same, images_eq_nil empty, Live, List.append_nil, ← same] at standing
    exact standing.symm
  · intro trail last calls
    obtain ⟨answers, poisoned⟩ := calls.poisoned nothing called failed
    obtain ⟨dropped, releasing, gives, _⟩ :=
      release_gives_back ((calls.reachable called).custody nothing)
    rw [releasing.state_eq]
    rw [poisoned.images] at gives
    exact ⟨answers, poisoned.backend, gives⟩

/-- A device that breaks down at the fourth of five pictures while two pictures are in flight. -/
def broken : Encoder Backend.simulated.recorded :=
  (performAll (List.replicate 5 (.encode {}))
    (onDevice { Device.create .manual none with failIssue := some (2, true) } { asyncDepth := 3 }
      .nonBlocking)).2

theorem broken_reachable :
    Reachable (B := Backend.simulated.recorded)
      { inner := { Device.create .manual none with failIssue := some (2, true) } } SameCalls
      broken :=
  (Calls.none.performAll _).reachable (.created { asyncDepth := 3 } .nonBlocking rfl)

theorem fatal_poisons_broken :
    (perform .drain broken).result =
        .error (.issueFailure 2 (.fatal "injected issue failure")) ∧
      (perform .drain broken).state.inFlight = 2 ∧
      (perform .drain broken).state.coded.map (fun packet => packet.info.displayOrder) = [0] ∧
      (perform .drain broken).state.window.images = [0, 1, 3, 4] ∧
      (perform .drain broken).state.window.Stocked ∧
      ∀ trail last, Calls SameCalls (perform .drain broken).state trail last →
        trail.map Prod.snd =
          answersOnceFailed (perform .drain broken).state.coded (trail.map Prod.fst) ∧
        GivesBack (perform .drain broken).state last
          (if .close ∈ trail.map Prod.fst then (perform .drain broken).state.window.images else []) ∧
        GivesBack last (release last).state
          (if .close ∈ trail.map Prod.fst then [] else (perform .drain broken).state.window.images) := by
  have failing : (perform .drain broken).result =
      .error (.issueFailure 2 (.fatal "injected issue failure")) := by decide +kernel
  obtain ⟨stocked, _, later⟩ := Reachable.fatal_poisons rfl broken_reachable failing rfl rfl
  exact ⟨failing, by decide +kernel, by decide +kernel, by decide +kernel, stocked, later⟩

end

end VideoSchedule.Encoder

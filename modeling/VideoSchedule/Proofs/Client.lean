import VideoSchedule.Proofs.Step

/-!
The calls of a client. Every call keeps the invariant and fails for no internal reason; repeated
steps come to an end within their limit, since each of them leaves less work.
-/

namespace VideoSchedule

open VideoSchedule.Action

def EncodeError.isInternal : EncodeError → Bool
  | .invalidReferenceState | .invalidInternalState => true
  | _ => false

theorem EncodeError.not_isInternal {cause : EncodeError} (blame : cause.ofBackend = true) :
    cause.isInternal = false := by
  cases cause <;> first | rfl | cases blame

namespace Encoder

variable {B : Backend} {ledger : Ledger B} {encoder : Encoder B} {mode : BlockingMode} {α : Type}

/-- What every call ensures. -/
structure Safe (ledger : Ledger B) (result : Except EncodeError α) (after : Encoder B) : Prop where
  sound : after.Sound ledger
  error : ∀ cause, result = .error cause → cause.isInternal = false

theorem Sound.safe (sound : encoder.Sound ledger) (value : α) : Safe ledger (.ok value) encoder :=
  ⟨sound, by simp⟩

theorem Sound.refused (sound : encoder.Sound ledger) {cause : EncodeError}
    (outside : cause.isInternal = false) : Safe ledger (.error cause : Except EncodeError α) encoder := by
  refine ⟨sound, fun other same => ?_⟩
  cases same
  exact outside

theorem Sound.withCoded (sound : encoder.Sound ledger) (coded : List CodedPicture) :
    ({ encoder with coded } : Encoder B).Sound ledger := by
  rcases sound with running | ended
  · exact Or.inl (running.of_core
      (running.core.congr rfl rfl rfl rfl rfl running.core.ended) rfl rfl)
  · exact Or.inr ⟨ended.window, ended.queue, ended.waiting, ended.stopped, ended.records⟩

theorem Sound.drains (sound : encoder.Sound ledger) :
    ({ encoder with draining := true } : Encoder B).Sound ledger := by
  rcases sound with running | ended
  · exact Or.inl (running.of_core (running.core.congr rfl rfl rfl rfl rfl fun stopped =>
      ⟨(running.core.ended stopped).1, rfl⟩) rfl rfl)
  · exact Or.inr ⟨ended.window, ended.queue, ended.waiting,
      ended.stopped.imp_right fun stopped => ⟨stopped.1, rfl⟩, ended.records⟩

theorem encode_ok (sound : encoder.Sound ledger) (frame : Frame) :
    Ensures (encode frame) encoder (Safe ledger) := by
  refine Runs.bind_ensures (runs_get _) ?_
  cases alive : encoder.failed with
  | true => exact (runs_fail _ _).ensures (sound.refused rfl)
  | false =>
      cases draining : encoder.draining with
      | true => exact (runs_fail _ _).ensures (sound.refused rfl)
      | false =>
          rcases sound with running | ended
          · have longer : ({ encoder with waiting := encoder.waiting ++ [frame] } :
                Encoder B).Running ledger := by
              refine running.of_core (running.core.congr rfl rfl rfl rfl rfl fun stopped => ?_) rfl rfl
              have signalled := (running.core.ended stopped).2
              rw [draining] at signalled
              cases signalled
            exact (runs_modify _ _).ensures (Sound.safe (Or.inl longer) ())
          · have stopped := ended.stopped
            simp [alive, draining] at stopped

/-! Packets. -/

theorem stepsWithin_ok (limit : Nat) (sound : encoder.Sound ledger)
    (enough : encoder.work < limit) :
    Ensures (stepsWithin mode limit) encoder fun result after =>
      Safe ledger result after ∧ result ≠ .ok none := by
  -- Every step after which the search goes on leaves less work, so the limit outlasts them.
  induction limit generalizing encoder with
  | zero => exact absurd enough (Nat.not_lt_zero _)
  | succ limit ih =>
      obtain ⟨result, after, stepping, soundAfter, _, concluded, _⟩ := step_ok sound mode
      cases concluded with
      | fatal blame _ _ =>
          refine (Runs.bind_error stepping).ensures ⟨soundAfter.refused ?_, by simp⟩
          rcases blame with rfl | blame
          · rfl
          · exact EncodeError.not_isInternal blame
      | moved moved =>
          cases moved with
          | busy =>
              exact Runs.bind_ensures stepping ((runs_pure _ _).ensures
                ⟨soundAfter.safe _, by simp⟩)
          | endOfStream =>
              exact Runs.bind_ensures stepping ((runs_pure _ _).ensures
                ⟨soundAfter.safe _, by simp⟩)
          | needInput goesOn less =>
              refine Runs.bind_ensures stepping (Runs.bind_ensures (runs_get _) ?_)
              cases progress : after.canProgress with
              | true =>
                  exact ih soundAfter
                    (Nat.lt_of_lt_of_le (less progress) (Nat.le_of_lt_succ enough))
              | false => exact (runs_pure _ _).ensures ⟨soundAfter.safe _, by simp⟩
          | gained gains less =>
              have fewer := Nat.lt_of_lt_of_le less (Nat.le_of_lt_succ enough)
              cases gains with
              | failed blame =>
                  exact (Runs.bind_error stepping).ensures
                    ⟨soundAfter.refused (EncodeError.not_isInternal blame), by simp⟩
              | packet =>
                  exact Runs.bind_ensures stepping ((runs_pure _ _).ensures
                    ⟨soundAfter.safe _, by simp⟩)
              | empty =>
                  refine Runs.bind_ensures stepping (Runs.bind_ensures (runs_get _) ?_)
                  cases progress : after.canProgress || after.scheduler.endOfStream with
                  | true => exact ih soundAfter fewer
                  | false => exact (runs_pure _ _).ensures ⟨soundAfter.safe _, by simp⟩

theorem nextPacket_ok (sound : encoder.Sound ledger) (mode : BlockingMode) :
    Ensures (nextPacket mode) encoder (Safe ledger) := by
  refine Runs.bind_ensures (runs_get _) ?_
  cases codedEq : encoder.coded with
  | cons picture rest =>
      exact Runs.bind_ensures (runs_modify _ _) ((runs_pure _ _).ensures
        ((sound.withCoded rest).safe _))
  | nil =>
      refine (stepsWithin_ok encoder.stepLimit sound encoder.work_lt_stepLimit).bind ?_ ?_
      · rintro (_ | received) after ⟨safe, found⟩
        · exact absurd rfl found
        · exact (runs_require rfl _ _).ensures (safe.sound.safe received)
      · rintro cause after ⟨safe, _⟩
        exact safe.sound.refused (safe.error cause rfl)

theorem receive_ok (sound : encoder.Sound ledger) : Ensures receive encoder (Safe ledger) :=
  Runs.bind_ensures (runs_get _) (nextPacket_ok sound encoder.mode)

theorem poll_ok (sound : encoder.Sound ledger) : Ensures poll encoder (Safe ledger) := by
  refine (nextPacket_ok sound .nonBlocking).bind (fun received after safe => ?_)
    fun cause after safe => safe.sound.refused (safe.error cause rfl)
  cases received <;> exact (runs_pure _ _).ensures (safe.sound.safe _)

/-! The end of the stream. -/

structure Drained (ledger : Ledger B) (result : Except EncodeError (Option (Option EncodeError)))
    (after : Encoder B) : Prop where
  sound : after.Sound ledger
  finishes : result ≠ .ok none
  error : ∀ cause, result = .error cause → cause.isInternal = false ∧ after.failed = true
  ended : ∀ first, result = .ok (some first) → after.scheduler.endOfStream = true ∧
    ∀ cause, first = some cause → cause.isInternal = false

theorem drainWithin_ok (limit : Nat) (sound : encoder.Sound ledger)
    (draining : encoder.draining = true) (enough : encoder.work < limit)
    {first : Option EncodeError} (outside : ∀ cause, first = some cause → cause.isInternal = false) :
    Ensures (drainWithin first limit) encoder (Drained ledger) := by
  induction limit generalizing encoder first with
  | zero => exact absurd enough (Nat.not_lt_zero _)
  | succ limit ih =>
      obtain ⟨result, after, stepping, soundAfter, keeps, concluded, _⟩ := step_ok sound .blocking
      have drainingAfter := keeps.draining.trans draining
      refine Runs.bind_ensures stepping.attempt ?_
      cases concluded with
      | fatal blame fatal failed =>
          dsimp only
          rw [if_pos fatal]
          refine (runs_fail _ _).ensures ⟨soundAfter, by simp, fun cause same => ?_, by simp⟩
          cases same
          refine ⟨?_, failed⟩
          rcases blame with rfl | blame
          · rfl
          · exact EncodeError.not_isInternal blame
      | moved moved survives =>
          cases moved with
          | busy impatient => cases impatient
          | endOfStream ended _ =>
              refine (runs_pure _ _).ensures ⟨soundAfter, by simp, by simp, fun other same => ?_⟩
              cases same
              exact ⟨ended, outside⟩
          | needInput goesOn less =>
              have progress : after.canProgress = true := by
                simp [canProgress, drainingAfter, goesOn]
              refine Runs.bind_ensures (runs_get _) ?_
              rw [if_pos progress]
              exact ih soundAfter drainingAfter
                (Nat.lt_of_lt_of_le (less progress) (Nat.le_of_lt_succ enough)) outside
          | gained gains less =>
              have fewer := Nat.lt_of_lt_of_le less (Nat.le_of_lt_succ enough)
              cases gains with
              | @failed cause blame =>
                  -- The failure of one picture is kept for later and draining goes on.
                  have passes : cause.isFatal = false := survives cause rfl
                  dsimp only
                  rw [if_neg (by simp [passes])]
                  refine ih soundAfter drainingAfter fewer fun other same => ?_
                  cases first with
                  | none =>
                      cases same
                      exact EncodeError.not_isInternal blame
                  | some earlier => exact outside other same
              | packet picture =>
                  exact Runs.bind_ensures (runs_modify _ _)
                    (ih (soundAfter.withCoded (after.coded ++ [picture])) drainingAfter fewer outside)
              | empty => exact ih soundAfter drainingAfter fewer outside

def IsOver (encoder : Encoder B) : Prop :=
  encoder.failed = true ∨ encoder.scheduler.endOfStream = true

theorem drain_ok (sound : encoder.Sound ledger) :
    Ensures drain encoder fun result after => Safe ledger result after ∧ after.IsOver := by
  have soundDraining := sound.drains
  refine Runs.bind_ensures (runs_modify _ _) (Runs.bind_ensures (runs_get _)
    ((drainWithin_ok _ soundDraining rfl (work_lt_stepLimit _) (by simp)).bind ?_ ?_))
  · rintro (_ | _ | cause) after drained
    · exact absurd rfl drained.finishes
    · exact (runs_pure _ _).ensures ⟨drained.sound.safe _, Or.inr (drained.ended _ rfl).1⟩
    · obtain ⟨stopped, outside⟩ := drained.ended _ rfl
      exact (runs_fail _ _).ensures ⟨drained.sound.refused (outside cause rfl), Or.inr stopped⟩
  · intro cause after drained
    obtain ⟨outside, failed⟩ := drained.error cause rfl
    exact ⟨drained.sound.refused outside, Or.inl failed⟩

theorem Sound.released (sound : encoder.Sound ledger) (stopped : encoder.IsOver) :
    Ensures release encoder fun result after => result = .ok () ∧ after.Ended ledger := by
  obtain ⟨window, backend, failures, runs, ⟨empty, _⟩, records⟩ := release_ok sound
  refine runs.ensures ⟨rfl, empty, rfl, rfl, ?_, records⟩
  rcases stopped with failed | signalled
  · exact Or.inl failed
  · rcases sound with running | ended
    · exact Or.inr ⟨signalled, (running.core.ended signalled).2⟩
    · exact ended.stopped

theorem close_ok (sound : encoder.Sound ledger) : Ensures close encoder (Safe ledger) := by
  -- However draining ends, the session is over, and what is left is freed.
  have closing : ∀ {result : Except EncodeError Unit} {after : Encoder B}, Safe ledger result after →
      after.IsOver → Ensures (do release; Action.ofExcept result) after (Safe ledger) := by
    intro result after safe stopped
    obtain ⟨_, last, releasing, rfl, ended⟩ := safe.sound.released stopped
    exact Runs.bind_ensures releasing ((runs_ofExcept _ _).ensures ⟨Or.inr ended, safe.error⟩)
  refine Runs.bind_ensures (runs_get _) ?_
  by_cases done : (encoder.failed || (encoder.scheduler.endOfStream && encoder.window.isEmpty)) = true
  · rw [if_pos done]
    refine Runs.bind_ensures (runs_pure _ _) (closing (sound.safe ()) ?_)
    rw [Bool.or_eq_true, Bool.and_eq_true] at done
    exact done.imp_right And.left
  · rw [if_neg done]
    obtain ⟨result, after, draining, safe, stopped⟩ := drain_ok sound
    exact Runs.bind_ensures draining.attempt (closing safe stopped)

theorem perform_ok (sound : encoder.Sound ledger) (call : Call) :
    Ensures (perform call) encoder (Safe ledger) := by
  have stop : ∀ {β : Type} {cause : EncodeError} {after : Encoder B},
      Safe ledger (.error cause : Except EncodeError β) after →
        Safe ledger (.error cause : Except EncodeError Answer) after :=
    fun safe => safe.sound.refused (safe.error _ rfl)
  cases call with
  | encode frame =>
      exact (encode_ok sound frame).bind
        (fun _ after safe => (runs_pure _ _).ensures (safe.sound.safe _)) fun _ _ => stop
  | poll =>
      refine (poll_ok sound).bind (fun found after safe => ?_) fun _ _ => stop
      cases found <;> exact (runs_pure _ _).ensures (safe.sound.safe _)
  | receive =>
      refine (receive_ok sound).bind (fun received after safe => ?_) fun _ _ => stop
      cases received <;> exact (runs_pure _ _).ensures (safe.sound.safe _)
  | drain =>
      exact (drain_ok sound).bind
        (fun _ after both => (runs_pure _ _).ensures (both.1.sound.safe _)) fun _ _ both => stop both.1
  | close =>
      exact (close_ok sound).bind
        (fun _ after safe => (runs_pure _ _).ensures (safe.sound.safe _)) fun _ _ => stop

end Encoder

end VideoSchedule

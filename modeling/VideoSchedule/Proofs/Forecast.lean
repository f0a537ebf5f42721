import VideoSchedule.Proofs.Streams

/-!
What a session has issued follows from the frames that came in so far, whichever frames come later.
Once the stream has ended these are all the frames that the session accepted.
-/

namespace VideoSchedule.Encoder

open VideoSchedule.Action

section

variable {B : Backend} {before middle after : Encoder B} {flight later : List (Handle × B.Promise)}
  {packets : List CodedPicture}

theorem Move.ending (move : Move before flight packets after later) :
    after.draining = before.draining ∧
      after.scheduler.endOfStream = before.scheduler.endOfStream := by
  cases move with
  | issue core _ picks answers =>
      obtain ⟨schedules, _⟩ := core.picked picks
      cases answers
      exact ⟨rfl, schedules.endOfStream⟩
  | refuse core picks answers =>
      obtain ⟨schedules, _⟩ := core.picked picks
      cases answers
      exact ⟨rfl, schedules.endOfStream⟩
  | deliver _ _ _ delivers => cases delivers <;> exact ⟨rfl, rfl⟩
  | finish _ _ _ finishes =>
      cases finishes
      exact ⟨rfl, rfl⟩

theorem Moves.ending (moves : Moves before flight packets after later) :
    after.draining = before.draining ∧
      after.scheduler.endOfStream = before.scheduler.endOfStream := by
  induction moves with
  | none => exact ⟨rfl, rfl⟩
  | next _ move ih => exact ⟨move.ending.1.trans ih.1, move.ending.2.trans ih.2⟩

theorem Strides.ending {result : Except EncodeError Step} (strides : Strides before result after) :
    after.draining = before.draining ∧
      (after.scheduler.endOfStream = true →
        before.scheduler.endOfStream = true ∨ before.draining = true ∧ before.waiting = []) := by
  cases strides with
  | lost loses =>
      cases loses
      exact ⟨rfl, Or.inl⟩
  | went entry picks _ last =>
      obtain ⟨draining, endOfStream⟩ := (picks.last last).ending
      rw [draining, endOfStream]
      cases entry with
      | nothing => exact ⟨rfl, Or.inl⟩
      | frame => exact ⟨rfl, Or.inl⟩
      | ending waiting drains => exact ⟨rfl, fun _ => Or.inr ⟨drains, waiting⟩⟩

end

variable {B : Backend} {origin : Cursor} {frames accepted : List Frame} {ended : Bool}
  {requests : List (Request B.Image)} {packets : List CodedPicture}
  {before after opening encoder : Encoder B.recorded}

def Follows (origin : Cursor) (frames : List Frame) (ended : Bool)
    (requests : List (Request B.Image)) : Prop :=
  ∀ future, (ended = true → future = []) →
    ∃ rest, Cursor.script (cuesOf frames ++ future) origin [] =
      requests.map Request.outline ++ rest

theorem Chronicle.follows {admitted : List (Frame × B.Image)}
    {flight : List (Handle × B.recorded.Promise)}
    (chronicle : Chronicle origin admitted packets encoder flight) :
    Follows origin (admitted.map Prod.fst) encoder.scheduler.endOfStream
      encoder.backend.requests := by
  intro future ends
  cases chronicle.tells.stands with
  | within plot =>
      have script := plot.script future ends
      rw [List.append_assoc] at script
      exact ⟨_, script⟩
  | through _ ended script =>
      refine ⟨[], ?_⟩
      rw [ends ended, List.append_nil, List.append_nil]
      exact script

/-- Which frames the requests follow from. -/
structure Foretold (origin : Cursor) (accepted frames : List Frame) (encoder : Encoder B.recorded) :
    Prop where
  within : frames <+: accepted
  ended : encoder.scheduler.endOfStream = true → encoder.draining = true ∧ frames = accepted
  follows : Follows origin frames encoder.scheduler.endOfStream encoder.backend.requests

theorem Course.foretold_step {ledger : Ledger B.recorded} {result : Except EncodeError Step}
    (course : Course Recorded.SameCalls opening accepted packets before)
    (starts : Chronicle origin [] [] opening opening.queue.promises) (empty : opening.waiting = [])
    (foretold : Foretold origin accepted frames before) (sound : before.Sound ledger)
    (alive : before.failed = false) (strides : Strides before result after) :
    ∃ frames, Foretold origin accepted frames after := by
  obtain ⟨admitted, chronicle, all⟩ := course.chronicle starts empty alive
  have ending := strides.ending
  cases strides with
  | lost loses =>
      cases loses with
      | @frame frame =>
          have adds : Recorded.Adds before.backend (B.recorded.alloc frame before.backend).2
              _ _ _ _ := Recorded.alloc_adds frame
          have requests := adds.requests
          rw [List.append_nil] at requests
          exact ⟨frames, foretold.within, foretold.ended, requests.symm ▸ foretold.follows⟩
  | went entry picks _ last =>
      obtain ⟨entered, chronicleAfter, waiting⟩ :=
        chronicle.strides sound entry (picks.last last)
      have allAfter : (admitted ++ entered).map Prod.fst ++ after.waiting = accepted := by
        rw [List.map_append, List.append_assoc, waiting, all]
      refine ⟨_, ⟨_, allAfter⟩, fun ended => ?_, chronicleAfter.follows⟩
      -- a stream that ends has no frames that wait, before and after
      have through : before.draining = true ∧ before.waiting = [] := by
        rcases ending.2 ended with earlier | now
        · refine ⟨(foretold.ended earlier).1, ?_⟩
          cases waits : before.waiting with
          | nil => rfl
          | cons frame rest =>
              have goesOn := (sound.running_of_waiting waits).2
              rw [earlier] at goesOn
              cases goesOn
        · exact now
      rw [through.2] at waiting
      rw [(List.append_eq_nil_iff.mp waiting).2, List.append_nil] at allAfter
      exact ⟨ending.1.trans through.1, allAfter⟩

theorem Course.foretold (course : Course Recorded.SameCalls opening accepted packets encoder)
    (starts : Chronicle origin [] [] opening opening.queue.promises)
    (empty : opening.waiting = []) (goesOn : opening.scheduler.endOfStream = false) :
    ∃ frames, Foretold origin accepted frames encoder := by
  induction course with
  | start =>
      refine ⟨[], List.nil_prefix, fun ended => ?_, starts.follows⟩
      rw [goesOn] at ended
      cases ended
  | step course sound strode ih =>
      obtain ⟨frames, foretold⟩ := ih
      cases strode with
      | dead => exact ⟨frames, foretold⟩
      | alive alive strides => exact course.foretold_step starts empty foretold sound alive strides
      | fatal alive strides =>
          obtain ⟨more, within, ended, follows⟩ :=
            course.foretold_step starts empty foretold sound alive strides
          exact ⟨more, within, ended, follows⟩
  | accept _ frame _ goesOn ih =>
      obtain ⟨frames, within, ended, follows⟩ := ih
      refine ⟨frames, within.trans (List.prefix_append ..), fun through => ?_, follows⟩
      have drains := (ended through).1
      rw [goesOn] at drains
      cases drains
  | drain _ ih =>
      obtain ⟨frames, within, ended, follows⟩ := ih
      exact ⟨frames, within, fun through => ⟨rfl, (ended through).2⟩, follows⟩
  | code _ _ ih =>
      obtain ⟨frames, within, ended, follows⟩ := ih
      exact ⟨frames, within, ended, follows⟩
  | abandon _ _ _ winds ih =>
      obtain ⟨frames, within, ended, follows⟩ := ih
      refine ⟨frames, within, ended, ?_⟩
      rw [Recorded.requests_of_winds winds]
      exact follows
  | progress _ moved ih =>
      obtain ⟨frames, within, ended, follows⟩ := ih
      refine ⟨frames, within, ended, ?_⟩
      have adds := Recorded.adds_of_calls moved
      rw [adds.requests, List.append_nil]
      exact follows

section

variable {start : Recorded B} {config : Config} {mode : BlockingMode}
  {trail : List (Call × Except EncodeError Answer)}

theorem Reachable.foretold (nothing : start.calls = [])
    (reachable : Reachable (B := B.recorded) start Recorded.SameCalls encoder) :
    ∃ config gop accepted frames, config.Valid ∧
      Gop.ofConfig? config (B.capabilities start.inner) = some gop ∧
      encoder.scheduler.gop.bPerGroup = gop.bPerGroup ∧
      encoder.scheduler.gop.maxBDepth = gop.maxBDepth ∧
      Foretold { gop } accepted frames encoder := by
  obtain ⟨config, mode, gop, accepted, packets, valid, made, course⟩ := reachable.course
  obtain ⟨frames, foretold⟩ :=
    course.foretold (Chronicle.start nothing valid made mode) rfl rfl
  exact ⟨config, gop, accepted, frames, valid, made, course.setting.bPerGroup,
    course.setting.maxBDepth, foretold⟩

theorem Calls.foretold (nothing : start.calls = [])
    (created : ((create (B := B.recorded) start config mode : Action Unit (Encoder B.recorded))
      ()).result = .ok opening)
    (calls : Calls Recorded.SameCalls opening trail encoder) :
    ∃ frames, Foretold { gop := opening.scheduler.gop } (submissions trail) frames encoder := by
  obtain ⟨valid, gop, made, rfl⟩ := create_eq_ok created
  have reachable : Reachable (B := B.recorded) start Recorded.SameCalls
      (opened start gop config mode) := .created config mode created
  obtain ⟨_, course⟩ := calls.course reachable.invariant rfl
  exact course.foretold (Chronicle.start nothing valid made mode) rfl rfl

end

theorem Foretold.script (foretold : Foretold origin accepted frames encoder) :
    ∃ rest, Cursor.script (cuesOf frames) origin [] =
      encoder.backend.requests.map Request.outline ++ rest := by
  have script := foretold.follows [] fun _ => rfl
  rwa [List.append_nil] at script

end VideoSchedule.Encoder

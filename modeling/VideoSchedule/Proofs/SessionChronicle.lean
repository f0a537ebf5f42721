import VideoSchedule.Proofs.Accounts
import VideoSchedule.Proofs.SessionRuns
import VideoSchedule.Proofs.Custody

/-!
The chronicle of a session under record: its script, its frames, what is in flight, and the accounts.
It is kept move by move, and so through every course of a session that has not failed.
-/

namespace VideoSchedule

open VideoSchedule.Action Window

namespace Encoder

variable {B : Backend} {before after encoder : Encoder B.recorded} {origin : Cursor}
  {admitted : List (Frame × B.Image)} {flight later : List (Handle × B.recorded.Promise)}
  {packets more : List CodedPicture} {ledger : Ledger B.recorded} {accepted : List Frame}

structure Chronicle (origin : Cursor) (admitted : List (Frame × B.Image))
    (packets : List CodedPicture) (encoder : Encoder B.recorded)
    (flight : List (Handle × B.recorded.Promise)) : Prop where
  tells : Tells origin admitted encoder
  films : Films admitted encoder
  flies : Flies encoder flight
  accounts : Accounts admitted packets encoder flight

theorem Chronicle.congr (chronicle : Chronicle origin admitted packets before flight)
    (adds : before.backend.Adds after.backend [] [] [] []) (window : after.window = before.window)
    (scheduler : after.scheduler = before.scheduler)
    (failedPictures : after.failedPictures = before.failedPictures) :
    Chronicle origin admitted packets after flight where
  tells := by
    refine chronicle.tells.of_adds adds ?_
    cases chronicle.tells.stands with
    | within plot =>
        rw [← window, ← scheduler] at plot
        exact .within plot
    | through empty ended script =>
        rw [← window] at empty
        rw [← scheduler] at ended
        exact .through empty ended script
  films := chronicle.films.of_adds adds (by rw [window]; exact chronicle.films.shows) (by simp)
  flies := chronicle.flies.of_adds adds (by rw [window]; exact chronicle.flies.aloft)
    (by rw [scheduler])
  accounts := chronicle.accounts.of_adds adds (by rw [window, failedPictures])

theorem Chronicle.move (chronicle : Chronicle origin admitted packets before flight)
    (move : Move before flight more after later) :
    Chronicle origin admitted (packets ++ more) after later where
  tells := chronicle.tells.move move
  films := chronicle.films.move move
  flies := chronicle.flies.move move
  accounts := chronicle.accounts.move chronicle.films chronicle.flies move

theorem Chronicle.moves (chronicle : Chronicle origin admitted packets before flight)
    (moves : Moves before flight more after later) :
    Chronicle origin admitted (packets ++ more) after later := by
  induction moves with
  | none => rwa [List.append_nil]
  | next _ move ih =>
      rw [← List.append_assoc]
      exact ih.move move

theorem Chronicle.ending (chronicle : Chronicle origin admitted packets before flight)
    (goesOn : before.scheduler.endOfStream = false) :
    Chronicle origin admitted packets before.signalEnd flight where
  tells := chronicle.tells.ending goesOn
  films := chronicle.films.of_adds (.refl _) chronicle.films.shows (by simp)
  flies := chronicle.flies.of_adds (.refl _) chronicle.flies.aloft rfl
  accounts := chronicle.accounts.of_adds (.refl _) rfl

theorem Chronicle.frame (chronicle : Chronicle origin admitted packets before flight)
    (sound : before.Sound ledger) {frame : Frame} {rest : List Frame} {image : B.recorded.Image}
    (waiting : before.waiting = frame :: rest) {middle : Encoder B.recorded}
    (window : middle.window = before.window) (scheduler : middle.scheduler = before.scheduler)
    (failedPictures : middle.failedPictures = before.failedPictures)
    (adds : before.backend.Adds middle.backend [(frame, some image)] [] [] []) :
    Chronicle origin (admitted ++ [(frame, image)]) packets
      (addPicture (B := B.recorded) frame image middle) flight := by
  obtain ⟨running, goesOn⟩ := sound.running_of_waiting waiting
  refine ⟨chronicle.tells.frame sound waiting window scheduler adds,
    chronicle.films.frame sound (chronicle.tells.length_eq goesOn) waiting window scheduler adds,
    ?_, ?_⟩
  · refine chronicle.flies.of_adds adds (fun entry member => ?_)
      (congrArg Scheduler.encodeOrder scheduler :)
    have aloft := chronicle.flies.aloft entry member
    rw [← window] at aloft
    exact aloft.enter _
  · refine (chronicle.accounts.grow _).of_adds adds ?_
    have failures : (addPicture (B := B.recorded) frame image middle).window.failures =
        middle.window.failures := Window.failures_enter rfl
    rw [failures, window, ← failedPictures]
    rfl

theorem Chronicle.strides (chronicle : Chronicle origin admitted packets before before.queue.promises)
    (sound : before.Sound ledger) {middle : Encoder B.recorded} (entry : Entry before middle)
    (moves : Moves middle middle.queue.promises more after later) :
    ∃ frames, Chronicle origin (admitted ++ frames) (packets ++ more) after later ∧
      frames.map Prod.fst ++ after.waiting = before.waiting := by
  rw [moves.waiting]
  rw [entry.queue] at moves
  cases entry with
  | nothing =>
      refine ⟨[], ?_, rfl⟩
      rw [List.append_nil]
      exact chronicle.moves moves
  | @frame frame rest image cropWarned roiWarned waiting answer =>
      refine ⟨[(frame, image)], Chronicle.moves ?_ moves, waiting.symm⟩
      exact chronicle.frame sound waiting rfl rfl rfl (Recorded.allocated_adds answer)
  | ending waiting draining goesOn =>
      refine ⟨[], ?_, rfl⟩
      rw [List.append_nil]
      exact (chronicle.ending goesOn).moves moves

theorem Chronicle.start {start : Recorded B} (nothing : start.calls = []) {config : Config} {gop : Gop}
    (valid : config.Valid) (made : Gop.ofConfig? config (B.recorded.capabilities start) = some gop)
    (mode : BlockingMode) :
    Chronicle { gop } [] [] (opened (B := B.recorded) start gop config mode) [] := by
  have requests : start.requests = [] := by simp [Recorded.requests, nothing]
  have fates : start.fates = [] := by simp [Recorded.fates, Recorded.endings, nothing]
  refine ⟨Tells.start nothing valid made mode, ⟨fun handle picture found => ?_, ?_⟩,
    ⟨by simp, rfl, fun _ => ?_, fun _ => ?_⟩, ⟨?_, ?_, ?_⟩⟩
  · cases (found : none = some picture)
  all_goals dsimp only [opened]
  · simp [requests]
  · rw [requests]
    rfl
  · rw [fates]
    rfl
  · rw [requests, fates]
    exact .nil
  · rw [fates]
    rfl
  · rw [fates]
    exact .nil

/-! Courses. -/

section

variable {opening : Encoder B.recorded}

theorem Course.chronicle
    (course : Course Recorded.SameCalls opening accepted packets encoder)
    (starts : Chronicle origin [] [] opening opening.queue.promises) (empty : opening.waiting = [])
    (alive : encoder.failed = false) :
    ∃ admitted, Chronicle origin admitted packets encoder encoder.queue.promises ∧
      admitted.map Prod.fst ++ encoder.waiting = accepted := by
  induction course with
  | start => exact ⟨[], starts, empty⟩
  | step _ sound strode ih =>
      cases strode with
      | dead failed =>
          rw [failed] at alive
          cases alive
      | fatal => cases alive
      | alive aliveBefore strides survives =>
          obtain ⟨admitted, chronicle, all⟩ := ih aliveBefore
          cases strides with
          | lost _ failed => cases survives _ failed
          | went entry picks _ last =>
              obtain ⟨frames, chronicleAfter, waiting⟩ :=
                chronicle.strides sound entry (picks.last last)
              refine ⟨admitted ++ frames, chronicleAfter, ?_⟩
              rw [List.map_append, List.append_assoc, waiting, all]
  | accept _ frame aliveBefore _ ih =>
      obtain ⟨admitted, chronicle, all⟩ := ih aliveBefore
      exact ⟨admitted, chronicle.congr (.refl _) rfl rfl rfl, by rw [← all, List.append_assoc]⟩
  | drain _ ih =>
      obtain ⟨admitted, chronicle, all⟩ := ih alive
      exact ⟨admitted, chronicle.congr (.refl _) rfl rfl rfl, all⟩
  | code _ _ ih =>
      obtain ⟨admitted, chronicle, all⟩ := ih alive
      exact ⟨admitted, chronicle.congr (.refl _) rfl rfl rfl, all⟩
  | abandon _ failed =>
      rw [failed] at alive
      cases alive
  | progress _ moved ih =>
      obtain ⟨admitted, chronicle, all⟩ := ih alive
      exact ⟨admitted, chronicle.congr (Recorded.adds_of_calls moved) rfl rfl rfl, all⟩

def Begins (origin : Cursor) (requests : List (Request B.Image)) : Prop :=
  ∃ cues rest, Cursor.script cues origin [] = requests.map Request.outline ++ rest

theorem Chronicle.begins (chronicle : Chronicle origin admitted packets encoder flight) :
    Begins origin encoder.backend.requests := by
  cases chronicle.tells.stands with
  | within plot =>
      have script := plot.script [] fun _ => rfl
      rw [List.append_assoc] at script
      exact ⟨_, _, script⟩
  | through _ _ script => exact ⟨_, [], by rw [script, List.append_nil]⟩

theorem Chronicle.begins_after {result : Except EncodeError Step}
    (chronicle : Chronicle origin admitted packets before before.queue.promises)
    (sound : before.Sound ledger) (strides : Strides before result after) :
    Begins origin after.backend.requests := by
  cases strides with
  | lost loses =>
      cases loses with
      | @frame frame =>
          have adds : Recorded.Adds before.backend (B.recorded.alloc frame before.backend).2 _ _ _ _ :=
            Recorded.alloc_adds frame
          have requests := adds.requests
          rw [List.append_nil] at requests
          exact requests.symm ▸ chronicle.begins
  | went entry picks _ last =>
      obtain ⟨_, chronicleAfter, _⟩ := chronicle.strides sound entry (picks.last last)
      exact chronicleAfter.begins

theorem Course.begins (course : Course Recorded.SameCalls opening accepted packets encoder)
    (starts : Chronicle origin [] [] opening opening.queue.promises)
    (empty : opening.waiting = []) : Begins origin encoder.backend.requests := by
  induction course with
  | start => exact starts.begins
  | step course sound strode ih =>
      cases strode with
      | dead => exact ih
      | alive aliveBefore strides =>
          obtain ⟨_, chronicle, _⟩ := course.chronicle starts empty aliveBefore
          exact chronicle.begins_after sound strides
      | fatal aliveBefore strides =>
          obtain ⟨_, chronicle, _⟩ := course.chronicle starts empty aliveBefore
          exact (chronicle.begins_after sound strides :)
  | accept _ _ _ _ ih => exact ih
  | drain _ ih => exact ih
  | code _ _ ih => exact ih
  | abandon _ _ _ winds ih =>
      rw [Recorded.requests_of_winds winds]
      exact ih
  | progress _ moved ih =>
      have adds := Recorded.adds_of_calls moved
      rw [adds.requests, List.append_nil]
      exact ih

end

end Encoder

end VideoSchedule

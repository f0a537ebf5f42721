import VideoSchedule.Backend.Recorded
import VideoSchedule.Backend.Simulated
import VideoSchedule.Proofs.Reachable

/-!
What holds in every reachable state: no call fails for an internal reason, all counts of holds are
exact, and at the end of the stream every picture retires.
-/

namespace VideoSchedule.Encoder

open VideoSchedule.Action Window Scheduler

variable {B : Backend} {ledger : Ledger B} {start : B.State} {progress : B.State → B.State → Prop}
  {encoder : Encoder B}

def onDevice (device : Device) (config : Config) (mode : BlockingMode) :
    Encoder Backend.simulated.recorded :=
  opened (B := Backend.simulated.recorded) { inner := device }
    ((Gop.ofConfig? config device.caps).getD default) config mode

/-- Eight frames in groups of three, and four packets. Pictures 4 and 6 are in flight, picture 5 is
laid out between them and waits, and pictures 1 and 2 were freed. -/
def midstream : Encoder Backend.simulated.recorded :=
  (performAll (List.replicate 8 (.encode {}) ++ List.replicate 4 .receive)
    (onDevice (Device.create .manual none) { gopSize := 8, asyncDepth := 3 } .blocking)).2

theorem midstream_reachable
    (progress : Recorded Backend.simulated → Recorded Backend.simulated → Prop) :
    Reachable (B := Backend.simulated.recorded) { inner := Device.create .manual none } progress
      midstream :=
  (Reachable.created { gopSize := 8, asyncDepth := 3 } .blocking rfl).performAll _

/-- No call ever ends in an internal error or complains of broken bookkeeping, whatever the backend
does; and the group that is left at the end of a stream never is empty, so that a picture can be taken
out of it. -/
theorem Reachable.perform_blameless (reachable : Reachable start progress encoder) (call : Call) :
    (∀ cause, (perform call encoder).result = .error cause → cause.isInternal = false) ∧
      (∀ notice ∈ (perform call encoder).notices, notice.accuses = false) ∧
      ∀ (gop : Gop) (entries : List (Handle × Picture B.Image)) (group : Group) (handle : Handle)
        (picture : Picture B.Image), findAnchor gop {} entries = (group, none) →
        entries.getLast? = some (handle, picture) → picture.issued = false → 0 < group.skipped := by
  obtain ⟨result, after, runs, safe⟩ := perform_ok reachable.invariant call
  refine ⟨fun cause failed => ?_, runs.clean, fun gop entries group handle picture found last waiting =>
    closeStream_skipped found last waiting⟩
  rw [runs.result_eq] at failed
  exact safe.error cause failed

theorem perform_blameless_midstream :
    midstream.window.pictures.map (fun picture => (picture.displayOrder, picture.complete)) =
        [(0, true), (3, true), (4, false), (5, false), (6, false), (7, false)] ∧
      midstream.inFlight = 2 ∧
      (perform .drain midstream).result.toOption = some .done ∧
      (∀ cause, (perform .drain midstream).result = .error cause → cause.isInternal = false) ∧
      (∀ notice ∈ (perform .drain midstream).notices, notice.accuses = false) ∧
      0 < (findAnchor ((Gop.ofConfig? {} {}).getD default) {}
        [((⟨1, 0⟩ : Handle), Picture.ofFrame 1 {} false 1)]).1.skipped := by
  obtain ⟨outside, clean, skips⟩ := Reachable.perform_blameless
    (midstream_reachable fun _ _ => False) .drain
  exact ⟨by decide +kernel, by decide +kernel, by decide +kernel, outside, clean,
    skips _ _ _ _ _ rfl rfl rfl⟩

/-! Counts. -/

theorem Sound.exact (sound : encoder.Sound ledger) :
    encoder.window.Exact encoder.scheduler.past.recent := by
  rcases sound with running | ended
  · exact running.core.tidy.exact
  · intro level handle picture found
    have live := mem_handles_of_find? found
    rw [ended.window] at live
    cases live

structure AtEnd (encoder : Encoder B) : Prop where
  occupied : encoder.window.isEmpty = false
  landed : encoder.caps.pipelined = true → encoder.queue.isEmpty = true
  picked : (pickNext (encoder.scheduler, encoder.window)).result = .ok .endOfStream

theorem Ended.takeNext_window (ended : encoder.Ended ledger) :
    (takeNext encoder).state.window = encoder.window := by
  by_cases signals : (encoder.draining && !encoder.scheduler.endOfStream) = true
  · have runs : Runs takeNext encoder (.ok ()) encoder.signalEnd := by
      refine (runs_get _).bind ?_
      simp only [ended.waiting, signals, if_true]
      exact runs_modify _ _
    rw [runs.state_eq]
    rfl
  · have runs : Runs takeNext encoder (.ok ()) encoder := by
      refine (runs_get _).bind ?_
      simp only [ended.waiting, signals]
      exact runs_pure _ _
    rw [runs.state_eq]

theorem Sound.takeNext_running (sound : encoder.Sound ledger)
    (occupied : (takeNext encoder).state.window.isEmpty = false) :
    (takeNext encoder).state.Running ledger := by
  rcases sound with running | ended
  · obtain ⟨result, session, runs, runningNext, _⟩ := takeNext_ok running
    rw [runs.state_eq]
    exact runningNext
  · rw [ended.takeNext_window, ← Bool.not_eq_true, Window.isEmpty_iff] at occupied
    exact absurd ended.window occupied

theorem Running.picked_end (running : encoder.Running ledger) (atEnd : encoder.AtEnd) :
    encoder.queue.promises = [] ∧ ∀ handle picture, encoder.window.find? handle = some picture →
      picture.issued = true := by
  constructor
  · cases pipelined : encoder.caps.pipelined with
    | true => exact List.isEmpty_iff.mp (atEnd.landed pipelined)
    | false => exact running.direct pipelined
  · obtain ⟨laid, fresh, arranged⟩ := running.core.arranged
    obtain ⟨pick, other, after, runs, picked⟩ := pickNext_ok arranged running.core.tidy
    have same := runs.result_eq.symm.trans atEnd.picked
    cases same
    cases picked with
    | endOfStream ended issued => exact issued

/-- All counts are exact: a picture is held indirectly once for each place in which a live picture
names it that has not given up its indirect holds, and directly likewise, and once more for each
place among the past pictures. So when the stream is finished, the final pass retires every picture
and there is none left to be dropped. -/
theorem Reachable.holds_exact (reachable : Reachable start progress encoder) :
    (∀ handle picture, encoder.window.find? handle = some picture →
      picture.holds.indirect = (encoder.window.claims .indirect).count handle ∧
      picture.holds.direct = (encoder.window.claims .direct).count handle +
        encoder.scheduler.past.recent.count handle) ∧
      ∀ session, (takeNext encoder).state = session → session.AtEnd →
        ∃ scheduler window gone after,
          (releasePast (session.scheduler, session.window)).state = (scheduler, window) ∧
          (Retirement.clear true window).result = .ok gone ∧
          (Retirement.clear true window).state = after ∧
          (session.window.pictures.map Picture.core).Perm (gone.map Picture.core) ∧
          after.handles = [] ∧ (Retirement.clearAll after).result = .ok [] := by
  have sound := reachable.invariant
  constructor
  · intro handle picture found
    exact ⟨sound.exact .indirect handle picture found, sound.exact .direct handle picture found⟩
  · rintro session rfl atEnd
    have running := sound.takeNext_running atEnd.occupied
    obtain ⟨empty, issued⟩ := running.picked_end atEnd
    have core := running.core
    rw [empty] at core
    obtain ⟨gone, after, releasing, clearing, pictures, nothing, dropping⟩ := core.finishing issued
    exact ⟨_, _, gone, after, releasing.state_eq, clearing.result_eq, clearing.state_eq, pictures,
      nothing, dropping.result_eq⟩

def onward (session : Encoder Backend.simulated.recorded) : Encoder Backend.simulated.recorded :=
  (step .blocking session).state

/-- The same session at the end of its stream, right before it is finished. -/
def finishing : Encoder Backend.simulated.recorded :=
  onward (onward (onward (onward { midstream with draining := true })))

theorem holds_exact_finishing :
    finishing.window.pictures.map (fun picture => (picture.displayOrder, picture.holds)) =
        [(3, ⟨0, 3⟩), (6, ⟨3, 3⟩), (7, ⟨2, 1⟩)] ∧
      (∀ handle picture, finishing.window.find? handle = some picture →
        picture.holds.indirect = (finishing.window.claims .indirect).count handle ∧
        picture.holds.direct = (finishing.window.claims .direct).count handle +
          finishing.scheduler.past.recent.count handle) ∧
      ∃ scheduler window gone after,
        (releasePast ((takeNext finishing).state.scheduler, (takeNext finishing).state.window)).state =
          (scheduler, window) ∧
        (Retirement.clear true window).result = .ok gone ∧
        (Retirement.clear true window).state = after ∧
        ((takeNext finishing).state.window.pictures.map Picture.core).Perm
          (gone.map Picture.core) ∧
        after.handles = [] ∧ (Retirement.clearAll after).result = .ok [] := by
  have reachable : Reachable (B := Backend.simulated.recorded)
      { inner := Device.create .manual none } (fun _ _ => False) finishing :=
    .stepped .blocking (.stepped .blocking (.stepped .blocking (.stepped .blocking
      (.ending (midstream_reachable _)))))
  have atEnd : (takeNext finishing).state.AtEnd :=
    ⟨by decide +kernel, by decide +kernel, by decide +kernel⟩
  obtain ⟨counts, ends⟩ := Reachable.holds_exact reachable
  exact ⟨by decide +kernel, counts, ends _ rfl atEnd⟩

end VideoSchedule.Encoder

import VideoSchedule.Proofs.Faultless

/-!
Streams that are encoded from the first frame to the end, with the packets taken as they come. On a
device for which no failure was planned every frame is accepted, and every call for a packet is
answered; in the end nothing is left in the session.
-/

namespace VideoSchedule.Encoder

open VideoSchedule.Action Recorded

section

variable {B : Backend} {ledger : Ledger B} {encoder before after : Encoder B} {mode : BlockingMode}
  {outcomes : List (Except EncodeError Step)}

theorem create_opened {start : B.State} {config : Config} {gop : Gop} (valid : config.Valid)
    (made : Gop.ofConfig? config (B.capabilities start) = some gop) (mode : BlockingMode) :
    ((create start config mode : Action Unit (Encoder B)) ()).result =
      .ok (opened start gop config mode) := by
  have accepted := config.validate_eq_ok_iff.mpr valid
  simp only [create, bind_run, Action.bind, Action.ofExcept, accepted, Gop.create, made, pure_run]
  rfl

theorem Loop.searched (sound : before.Sound ledger)
    (loop : Loop mode searchesOn (fun _ => id) before outcomes after) :
    Keeps before after ∧
      ∀ picture, .ok (.packet picture) ∈ outcomes → after.work < before.work := by
  induction loop with
  | last result state =>
      obtain ⟨_, _, runs, _, keeps, concluded, _⟩ := step_ok sound mode
      rw [runs.result_eq] at result
      rw [runs.state_eq] at state
      subst result state
      refine ⟨keeps, fun picture member => ?_⟩
      cases List.mem_singleton.mp member
      cases concluded with
      | moved moved =>
          cases moved with
          | gained _ less => exact less
  | again result state more _ ih =>
      obtain ⟨_, _, runs, soundAfter, keeps, concluded, _⟩ := step_ok sound mode
      rw [runs.result_eq] at result
      rw [runs.state_eq] at state
      subst result state
      obtain ⟨keepsLater, lessLater⟩ := ih soundAfter
      refine ⟨keeps.trans keepsLater, fun picture member => ?_⟩
      rcases List.mem_cons.mp member with first | later
      · rw [← first] at more
        cases more
      · exact (lessLater picture later).trans (concluded.less more)

structure Left (before : Encoder B) (result : Except EncodeError Received) (after : Encoder B) :
    Prop where
  draining : after.draining = before.draining
  packet : ∀ picture, result = .ok (.packet picture) →
    after.coded.length + after.work < before.coded.length + before.work
  nothing : (∀ picture, result ≠ .ok (.packet picture)) → after.coded = []

theorem Searches.left {result : Except EncodeError Received} (sound : before.Sound ledger)
    (searches : Searches mode before outcomes result after) : Left before result after := by
  cases searches with
  | @queued picture rest coded =>
      refine ⟨rfl, fun _ _ => ?_, fun none => absurd rfl (none picture)⟩
      rw [coded, List.length_cons]
      show rest.length + before.work < rest.length + 1 + before.work
      omega
  | @steps earlier outcome _ coded loop =>
      obtain ⟨keeps, less⟩ := loop.searched sound
      refine ⟨keeps.draining, fun picture given => ?_, fun _ => keeps.coded.trans coded⟩
      rw [keeps.coded]
      refine Nat.add_lt_add_left (less picture ?_) _
      suffices outcome = .ok (.packet picture) by simp [this]
      unfold answered at given
      split at given <;> cases given
      rfl

theorem Exhausted.packetsWithin_runs (exhausted : encoder.Exhausted) (alive : encoder.failed = false)
    (room : 0 < encoder.queue.capacity) {limit : Nat} (enough : encoder.coded.length < limit) :
    Runs (packetsWithin mode limit) encoder (.ok (encoder.coded, .ok .endOfStream))
      { encoder with coded := [] } := by
  induction limit generalizing encoder with
  | zero => omega
  | succ limit ih =>
      have next := exhausted.nextPacket_runs alive room mode
      cases codedEq : encoder.coded with
      | nil =>
          rw [codedEq] at next
          exact next.attempt.bind (runs_pure _ _)
      | cons picture rest =>
          rw [codedEq] at next enough
          have later : Exhausted { encoder with coded := rest } :=
            ⟨exhausted.window, exhausted.queue, exhausted.waiting, exhausted.ended,
              exhausted.draining⟩
          have others := ih later alive room (Nat.lt_of_succ_lt_succ enough)
          exact next.attempt.bind (others.bind (runs_pure _ _))

theorem Exhausted.packets_runs (exhausted : encoder.Exhausted) (alive : encoder.failed = false)
    (room : 0 < encoder.queue.capacity) (mode : BlockingMode) :
    Runs (packets mode) encoder (.ok (encoder.coded, .ok .endOfStream))
      { encoder with coded := [] } := by
  refine (runs_get _).bind (exhausted.packetsWithin_runs alive room ?_)
  rw [stepLimit]
  omega

theorem encode_runs (alive : encoder.failed = false) (goesOn : encoder.draining = false)
    (frame : Frame) :
    Runs (encode frame) encoder (.ok ()) { encoder with waiting := encoder.waiting ++ [frame] } := by
  refine (runs_get _).bind ?_
  rw [if_neg (by simp [alive]), if_neg (by simp [goesOn])]
  exact runs_modify _ _

theorem takeThen_runs {middle : Encoder B} {next : Action (Encoder B) StreamResult}
    {pictures given : List CodedPicture} {received : Received} (left : List Frame)
    (taking : Runs (packets .nonBlocking) before (.ok (pictures, .ok received)) middle)
    (runs : Runs next middle (.ok { packets := given, ending := .ok (), left := [] }) after) :
    Runs (takeThen left next) before
      (.ok { packets := pictures ++ given, ending := .ok (), left := [] }) after :=
  taking.bind (runs.bind (runs_pure _ _))

end

variable {device : Device} {config : Config} {gop : Gop} {mode pace : BlockingMode}
  {encoder : Encoder Backend.simulated.recorded} {accepted frames : List Frame}
  {packets : List CodedPicture}

theorem Comes.packetsWithin_runs
    (comes : Comes (openedOn device gop config mode) accepted packets encoder)
    (suited : Suited device config gop) (pace : BlockingMode) {limit : Nat}
    (enough : encoder.coded.length + encoder.work < limit) :
    ∃ received produced after, Runs (packetsWithin pace limit) encoder
        (.ok (encoder.coded ++ produced, .ok received)) after ∧
      Comes (openedOn device gop config mode) accepted (packets ++ produced) after ∧
      after.coded = [] ∧ after.draining = encoder.draining := by
  -- the queue and the work that is left shrink together with each packet
  induction limit generalizing encoder packets with
  | zero => omega
  | succ limit ih =>
      obtain ⟨_, result, middle, searches, _, runs⟩ := nextPacket_searches comes.sound pace
      obtain ⟨received, fine⟩ := comes.nextPacket_fine suited pace
      rw [runs.result_eq] at fine
      subst fine
      obtain ⟨_, _, same, sound, produced, course, handed⟩ :=
        nextPacket_course pace comes.sound comes.course
      have sameState := same.state_eq
      have sameResult := same.result_eq
      rw [runs.state_eq] at sameState
      rw [runs.result_eq] at sameResult
      subst sameState sameResult
      have left := searches.left comes.sound
      cases received with
      | packet picture =>
          have fewer := left.packet picture rfl
          obtain ⟨last, more, after, later, comesAfter, empty, draining⟩ :=
            ih ⟨sound, course⟩ (Nat.lt_of_lt_of_le fewer (Nat.le_of_lt_succ enough))
          refine ⟨last, produced ++ more, after, ?_, ?_, empty, draining.trans left.draining⟩
          · rw [← List.append_assoc, ← handed, List.append_assoc]
            exact runs.attempt.bind (later.bind (runs_pure _ _))
          · rwa [← List.append_assoc]
      | wouldBlock =>
          have empty := left.nothing (by simp)
          refine ⟨.wouldBlock, produced, middle, ?_, ⟨sound, course⟩, empty, left.draining⟩
          rw [← handed, empty]
          exact runs.attempt.bind (runs_pure _ _)
      | endOfStream =>
          have empty := left.nothing (by simp)
          refine ⟨.endOfStream, produced, middle, ?_, ⟨sound, course⟩, empty, left.draining⟩
          rw [← handed, empty]
          exact runs.attempt.bind (runs_pure _ _)

theorem Comes.encodeStream_runs
    (comes : Comes (openedOn device gop config mode) accepted packets encoder)
    (suited : Suited device config gop) (frames : List Frame) (empty : encoder.coded = [])
    (goesOn : encoder.draining = false) :
    ∃ given last, Runs (encodeStream frames) encoder
        (.ok { packets := given, ending := .ok (), left := [] }) last ∧
      Comes (openedOn device gop config mode) (accepted ++ frames) (packets ++ given) last ∧
      last.Exhausted := by
  induction frames generalizing encoder accepted packets with
  | nil =>
      have passes := comes.drain_fine suited
      obtain ⟨result, after, draining, sound, ⟨produced, course, handed⟩, _, finishes⟩ :=
        drain_course comes.sound comes.course
      rw [draining.result_eq] at passes
      subst passes
      obtain ⟨alive, exhausted⟩ := finishes (by simp [Passes])
      have room : 0 < after.queue.capacity := by
        rw [course.setting.capacity]
        exact suited.valid.asyncDepth_pos
      have given : after.coded = produced := by rwa [List.nil_append, empty, List.nil_append] at handed
      refine ⟨after.coded, { after with coded := [] }, ?_, ?_, ?_⟩
      · have taking := exhausted.packets_runs alive room .nonBlocking
        have taken := takeThen_runs [] taking
          (runs_pure ({ packets := [], ending := .ok (), left := [] } : StreamResult) _)
        rw [List.append_nil] at taken
        exact draining.attempt.bind taken
      · rw [List.append_nil, given]
        exact ⟨sound.withCoded _, course.code _⟩
      · exact ⟨exhausted.window, exhausted.queue, exhausted.waiting, exhausted.ended,
          exhausted.draining⟩
  | cons frame rest ih =>
      have alive := (comes.course.honest suited).1
      have encoding := encode_runs alive goesOn frame
      have entered : Comes (openedOn device gop config mode) (accepted ++ [frame]) packets
          { encoder with waiting := encoder.waiting ++ [frame] } := by
        refine ⟨?_, comes.course.accept frame alive goesOn⟩
        obtain ⟨_, _, runs, safe⟩ := encode_ok comes.sound frame
        rw [← encoding.state_eq, runs.state_eq]
        exact safe.sound
      obtain ⟨received, produced, middle, taking, comesMiddle, emptyMiddle, draining⟩ :=
        entered.packetsWithin_runs suited .nonBlocking
          (Nat.add_lt_add_left (work_lt_stepLimit _) _)
      obtain ⟨given, last, runs, comesLast, exhausted⟩ :=
        ih comesMiddle emptyMiddle (draining.trans goesOn)
      refine ⟨produced ++ given, last, ?_, ?_, exhausted⟩
      · have all : encoder.coded ++ produced = produced := by rw [empty, List.nil_append]
        have taken := takeThen_runs rest ((runs_get _).bind taking) runs
        dsimp only at taken
        rw [all] at taken
        exact encoding.attempt.bind taken
      · rwa [List.append_assoc, List.append_assoc] at comesLast

end VideoSchedule.Encoder

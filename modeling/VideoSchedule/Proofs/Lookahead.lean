import VideoSchedule.Backend.Simulated
import VideoSchedule.Proofs.Streams

/-!
How far admission runs ahead. A session that waits for its pictures, or has one at a time, never holds
more frames that were not issued than a group has B-pictures. One that does not wait takes a frame in
with every picture that it outputs, and so may run ahead as far as the client is.
-/

namespace VideoSchedule

open VideoSchedule.Action Window Scheduler

theorem Gop.bounds_of_ofConfig? {config : Config} {caps : Capabilities} {gop : Gop}
    (made : ofConfig? config caps = some gop) :
    gop.maxBDepth ≤ gop.bPerGroup ∧ gop.bPerGroup ≤ config.maxBFrames := by
  simp only [ofConfig?] at made
  split at made
  · cases made
    exact ⟨Nat.le_refl _, Nat.zero_le _⟩
  split at made
  · cases made
  split at made
  next uses =>
    cases made
    have some : 1 ≤ config.maxBFrames := by
      simp only [usesB, Bool.and_eq_true, decide_eq_true_eq] at uses
      exact uses.1.2
    have depth : config.maxBFrames.log2 < config.maxBFrames :=
      (Nat.log2_lt (by omega)).mpr Nat.lt_two_pow_self
    refine ⟨?_, Nat.le_refl _⟩
    dsimp only
    split <;> omega
  next =>
    cases made
    exact ⟨Nat.le_refl _, Nat.zero_le _⟩

namespace Encoder

variable {B : Backend} {ledger : Ledger B} {before after encoder opening : Encoder B}
  {flight later : List (Handle × B.Promise)} {packets : List CodedPicture} {accepted : List Frame}
  {start : B.State} {progress : B.State → B.State → Prop}

/-- Frames wait in the client's hands while the pipeline is full: either no two pictures are in
flight, or nobody goes on before the oldest one is there. -/
def Paced (encoder : Encoder B) : Prop :=
  encoder.mode = .blocking ∨ encoder.caps.pipelined = false

theorem Core.unissued_picked (core : before.Core ledger [] flight) {handle : Handle}
    {scheduler : Scheduler} {window : Window B.Image}
    (picks : Runs pickNext (before.scheduler, before.window) (.ok (.picture handle))
      (scheduler, window)) (encodeOrder : Nat) :
    unissuedIn (issuedWindow window handle encodeOrder) + 1 = unissuedIn before.window := by
  obtain ⟨schedules, pickable⟩ := core.picked picks
  obtain ⟨picture, found, waiting⟩ := pickable.waiting
  rw [unissued_issuedWindow found waiting, unissued_schedules schedules]

theorem unissued_left {change : Picture B.Image → Picture B.Image} (advances : Advances change)
    {handle : Handle} {window last : Window B.Image} {recent : List Handle}
    {gone : List (Picture B.Image)}
    (cleared : Retirement.Cleared recent gone (window.adjust handle change) last) :
    unissuedIn last = unissuedIn window :=
  (unissued_cleared cleared).trans (unissued_advances advances handle window)

theorem unissued_empty {window : Window B.Image} (empty : window.handles = []) :
    unissuedIn window = 0 := by
  rw [unissuedIn, pictures_eq_nil empty]
  rfl

theorem Move.unissued_le (move : Move before flight packets after later) :
    unissuedIn after.window ≤ unissuedIn before.window := by
  cases move with
  | issue core _ picks answers =>
      have counted := core.unissued_picked picks (before.scheduler.encodeOrderFor flight.length)
      cases answers
      dsimp only
      omega
  | refuse core picks answers =>
      have counted := core.unissued_picked picks (before.scheduler.encodeOrderFor flight.length)
      cases answers with
      | refused asks answer cleared =>
          have left := unissued_left advances_lose cleared
          exact Nat.le_of_succ_le (Nat.le_of_eq ((congrArg (· + 1) left).trans counted))
  | deliver _ _ _ delivers =>
      cases delivers with
      | failed _ _ _ cleared => exact Nat.le_of_eq (unissued_left advances_lose cleared)
      | coded _ _ _ _ cleared => exact Nat.le_of_eq (unissued_left advances_handOver cleared)
  | finish _ _ _ finishes =>
      cases finishes with
      | retired _ empty => exact Nat.le_trans (Nat.le_of_eq (unissued_empty empty)) (Nat.zero_le _)

theorem Move.inputOrder (move : Move before flight packets after later) :
    after.scheduler.inputOrder = before.scheduler.inputOrder := by
  cases move with
  | issue core _ picks answers =>
      obtain ⟨schedules, _⟩ := core.picked picks
      cases answers
      exact schedules.inputOrder
  | refuse core picks answers =>
      obtain ⟨schedules, _⟩ := core.picked picks
      cases answers
      exact schedules.inputOrder
  | deliver _ _ _ delivers => cases delivers <;> rfl
  | finish _ _ _ finishes =>
      cases finishes
      rfl

def Entered (encoder : Encoder B) : Prop :=
  unissuedIn encoder.window ≤ encoder.scheduler.inputOrder

theorem Moves.entered (moves : Moves before flight packets after later) (entered : before.Entered) :
    after.Entered := by
  induction moves with
  | none => exact entered
  | next _ move ih =>
      have fewer := move.unissued_le
      rw [Entered, move.inputOrder]
      exact Nat.le_trans fewer ih

theorem Entry.entered (entry : Entry before after) (entered : before.Entered) : after.Entered := by
  cases entry with
  | nothing => exact entered
  | @frame frame _ image _ _ _ _ =>
      have fresh : (Picture.ofFrame before.scheduler.inputOrder frame
        (before.scheduler.inputOrder == 0 || frame.forceKey) image).issued = false := rfl
      exact Nat.le_trans (Nat.le_of_eq (unissued_enter fresh before.window))
        (Nat.succ_le_succ entered)
  | ending => exact entered

theorem Strides.entered {result : Except EncodeError Step} (strides : Strides before result after)
    (entered : before.Entered) : after.Entered := by
  cases strides with
  | lost loses =>
      cases loses
      exact entered
  | went entry picks _ last => exact (picks.last last).entered (entry.entered entered)

theorem Sound.not_full (sound : encoder.Sound ledger) (holds : 0 < encoder.queue.capacity)
    (direct : encoder.caps.pipelined = false) : encoder.queue.isFull = false := by
  have empty : encoder.queue.promises = [] := by
    rcases sound with running | finished
    · exact running.direct direct
    · exact finished.queue
  rw [OutputQueue.isFull, OutputQueue.size, empty]
  exact decide_eq_false (Nat.not_le.mpr holds)

/-- The sizes of a session. No more pictures wait than frames came in. -/
structure Sized (encoder : Encoder B) : Prop where
  holds : 0 < encoder.queue.capacity
  shallow : encoder.scheduler.gop.maxBDepth ≤ encoder.scheduler.gop.bPerGroup
  entered : encoder.Entered

theorem Sized.of_setting (sized : before.Sized) (setting : Setting before after)
    (entered : after.Entered) : after.Sized := by
  refine ⟨?_, ?_, entered⟩
  · rw [setting.capacity]
    exact sized.holds
  · rw [setting.maxBDepth, setting.bPerGroup]
    exact sized.shallow

theorem Sized.strides (sized : before.Sized) {result : Except EncodeError Step}
    (strides : Strides before result after) : after.Sized :=
  sized.of_setting strides.steady.toSetting (strides.entered sized.entered)

/-- A step that finds room in the pipeline may take in a frame on top of those that wait, but then it
schedules a picture too. -/
theorem Sized.unissued_strides (sized : before.Sized) {result : Except EncodeError Step}
    (strides : Strides before result after) (free : before.queue.isFull = false) :
    unissuedIn after.window ≤ max (unissuedIn before.window) before.scheduler.gop.bPerGroup := by
  have setting := strides.steady.toSetting
  have sizedAfter := sized.strides strides
  have shallow := sizedAfter.shallow
  have entered := sizedAfter.entered
  rw [setting.bPerGroup] at shallow
  rw [Entered] at entered
  cases strides with
  | lost loses =>
      cases loses
      exact Nat.le_max_left _ _
  | went _ _ _ _ paces =>
      rcases paces.slack free with fewer | few | early
      · omega
      · rw [setting.bPerGroup] at few
        omega
      · rw [awaitsTimestamps, decide_eq_true_eq, Gop.decodeDelay] at early
        omega

theorem Course.sized (course : Course progress opening accepted packets encoder)
    (sized : opening.Sized) : encoder.Sized := by
  induction course with
  | start => exact sized
  | step _ _ strode ih =>
      cases strode with
      | dead => exact ih
      | alive _ strides => exact ih.strides strides
      | fatal _ strides =>
          have after := ih.strides strides
          exact ⟨after.holds, after.shallow, after.entered⟩
  | accept _ _ _ _ ih => exact ⟨ih.holds, ih.shallow, ih.entered⟩
  | drain _ ih => exact ⟨ih.holds, ih.shallow, ih.entered⟩
  | code _ _ ih => exact ⟨ih.holds, ih.shallow, ih.entered⟩
  | abandon _ _ empty _ ih =>
      exact ⟨ih.holds, ih.shallow, Nat.le_trans (Nat.le_of_eq (unissued_empty empty)) (Nat.zero_le _)⟩
  | progress _ _ ih => exact ⟨ih.holds, ih.shallow, ih.entered⟩

structure Settles (encoder : Encoder B) : Prop extends Sized encoder where
  few : unissuedIn encoder.window ≤ encoder.scheduler.gop.bPerGroup
  room : encoder.caps.pipelined = false ∨
    encoder.queue.mode = .blocking ∧ encoder.queue.isFull = false

theorem Settles.isFull (settles : encoder.Settles) (sound : encoder.Sound ledger) :
    encoder.queue.isFull = false := by
  rcases settles.room with direct | ⟨_, free⟩
  · exact sound.not_full settles.holds direct
  · exact free

theorem Settles.strides (settles : before.Settles) (sound : before.Sound ledger)
    {result : Except EncodeError Step} (strides : Strides before result after) : after.Settles := by
  have setting := strides.steady.toSetting
  have free := settles.isFull sound
  refine ⟨settles.toSized.strides strides, ?_, ?_⟩
  · have bounded := settles.toSized.unissued_strides strides free
    have few := settles.few
    rw [setting.bPerGroup]
    omega
  · rw [setting.caps, setting.queueMode]
    refine settles.room.imp id ?_
    intro ⟨blocking, _⟩
    refine ⟨blocking, ?_⟩
    cases strides with
    | lost loses =>
        cases loses
        exact free
    | went _ _ _ _ paces => exact paces.room blocking free

theorem Course.settles (course : Course progress opening accepted packets encoder)
    (settles : opening.Settles) : encoder.Settles := by
  induction course with
  | start => exact settles
  | step _ sound strode ih =>
      cases strode with
      | dead => exact ih
      | alive _ strides => exact ih.strides sound strides
      | fatal _ strides =>
          have after := ih.strides sound strides
          exact ⟨⟨after.holds, after.shallow, after.entered⟩, after.few, after.room⟩
  | accept _ _ _ _ ih => exact ⟨⟨ih.holds, ih.shallow, ih.entered⟩, ih.few, ih.room⟩
  | drain _ ih => exact ⟨⟨ih.holds, ih.shallow, ih.entered⟩, ih.few, ih.room⟩
  | code _ _ ih => exact ⟨⟨ih.holds, ih.shallow, ih.entered⟩, ih.few, ih.room⟩
  | abandon course failed empty winds ih =>
      have none := Nat.le_of_eq (unissued_empty empty)
      refine ⟨(course.abandon failed empty winds).sized settles.toSized, ?_, ih.room.imp id ?_⟩
      · exact Nat.le_trans none (Nat.zero_le _)
      · intro ⟨blocking, _⟩
        exact ⟨blocking, decide_eq_false (Nat.not_le.mpr ih.holds)⟩
  | progress _ _ ih => exact ⟨⟨ih.holds, ih.shallow, ih.entered⟩, ih.few, ih.room⟩

theorem sized_opened {config : Config} {gop : Gop} {mode : BlockingMode} (valid : config.Valid)
    (made : Gop.ofConfig? config (B.capabilities start) = some gop) :
    (opened start gop config mode : Encoder B).Sized where
  holds := valid.asyncDepth_pos
  shallow := (Gop.bounds_of_ofConfig? made).1
  entered := Nat.zero_le _

theorem settles_opened {config : Config} {gop : Gop} {mode : BlockingMode} (valid : config.Valid)
    (made : Gop.ofConfig? config (B.capabilities start) = some gop)
    (paced : mode = .blocking ∨ (B.capabilities start).pipelined = false) :
    (opened start gop config mode : Encoder B).Settles where
  toSized := sized_opened valid made
  few := Nat.zero_le _
  room := paced.symm.imp id fun blocking =>
    ⟨blocking, decide_eq_false (Nat.not_le.mpr valid.asyncDepth_pos)⟩

theorem Reachable.sized (reachable : Reachable start progress encoder) :
    encoder.Sized ∧ (encoder.Paced → encoder.Settles) := by
  obtain ⟨config, mode, gop, _, _, valid, made, course⟩ := reachable.course
  refine ⟨course.sized (sized_opened valid made), ?_⟩
  intro paced
  have setting := course.setting
  rw [Paced, setting.mode, setting.caps] at paced
  exact course.settles (settles_opened valid made paced)

theorem Sound.unissued_takeNext (sound : encoder.Sound ledger) :
    unissuedIn (takeNext encoder).state.window ≤ unissuedIn encoder.window + 1 := by
  rcases sound with running | ended
  · obtain ⟨result, after, runs, _, took⟩ := takeNext_ok running
    rw [runs.state_eq]
    cases took with
    | taken taken => exact taken.entry.unissued
    | lost _ _ loses =>
        cases loses
        exact Nat.le_succ _
  · rw [ended.takeNext_window]
    exact Nat.le_succ _

/-- In a session that waits for its pictures, or has one at a time, no more pictures wait between two
steps than a group has B-pictures, and one more while a step goes on: the one that came in with it. In
any session, more can come to wait only with a step that finds the pipeline full. -/
theorem Reachable.lookahead_bounded (reachable : Reachable start progress encoder) :
    (encoder.Paced → encoder.unissued ≤ encoder.scheduler.gop.bPerGroup ∧
      (takeNext encoder).state.unissued ≤ encoder.scheduler.gop.bPerGroup + 1) ∧
    ∀ mode, encoder.queue.isFull = false →
      (step mode encoder).state.unissued ≤ max encoder.unissued encoder.scheduler.gop.bPerGroup := by
  obtain ⟨sized, settles⟩ := reachable.sized
  constructor
  · intro paced
    have few := (settles paced).few
    have one := reachable.invariant.unissued_takeNext
    constructor
    · exact few
    · exact Nat.le_trans one (Nat.succ_le_succ few)
  · intro mode free
    obtain ⟨result, after, runs, _, _, _, strode⟩ := step_ok reachable.invariant mode
    rw [runs.state_eq]
    cases strode with
    | dead => exact Nat.le_max_left _ _
    | alive _ strides => exact sized.unissued_strides strides free
    | fatal _ strides =>
        have bounded := sized.unissued_strides strides free
        exact bounded

/-- Twelve frames at once, and then a call for a packet. -/
def rushed (config : Config) (mode : BlockingMode) : Encoder Backend.simulated.recorded :=
  (performAll (List.replicate 12 (.encode {}) ++ [.receive])
    (onDevice (Device.create .manual none) config mode)).2

theorem lookahead_bounded_rushed :
    (rushed {} .blocking).scheduler.gop.bPerGroup = 2 ∧ (rushed {} .blocking).unissued = 2 ∧
      0 < (rushed {} .blocking).waiting.length ∧
      (takeNext (rushed {} .blocking)).state.unissued ≤
        (rushed {} .blocking).scheduler.gop.bPerGroup + 1 ∧
      (step .nonBlocking (rushed {} .blocking)).state.unissued ≤
        max (rushed {} .blocking).unissued (rushed {} .blocking).scheduler.gop.bPerGroup := by
  have reachable : Reachable (B := Backend.simulated.recorded)
      { inner := Device.create .manual none } Recorded.SameCalls (rushed {} .blocking) :=
    (Calls.none.performAll _).reachable (.created {} .blocking rfl)
  obtain ⟨bounded, steps⟩ := Reachable.lookahead_bounded reachable
  refine ⟨by decide +kernel, by decide +kernel, by decide +kernel, ?_, ?_⟩
  · exact (bounded (.inl (by decide +kernel))).2
  · exact steps .nonBlocking (by decide +kernel)

def completes (displayOrder : Nat) (encoder : Encoder Backend.simulated.recorded) :
    Encoder Backend.simulated.recorded :=
  { encoder with
    backend := { encoder.backend with inner := encoder.backend.inner.complete displayOrder } }

/-- One picture may be in flight, and nobody waits. The pictures complete one after the other, and
after each the client asks twice for a packet. -/
def overrun : Nat → Encoder Backend.simulated.recorded
  | 0 => rushed { maxBFrames := 0, asyncDepth := 1 } .nonBlocking
  | count + 1 => (performAll [.receive, .receive] (completes count (overrun count))).2

theorem overrun_reachable (count : Nat) :
    Reachable (B := Backend.simulated.recorded) { inner := Device.create .manual none }
      Recorded.SameCalls (overrun count) := by
  induction count with
  | zero =>
      refine (Calls.none.performAll _).reachable ?_
      exact .created { maxBFrames := 0, asyncDepth := 1 } .nonBlocking rfl
  | succ count ih =>
      have moved : Recorded.SameCalls (overrun count).backend
          (completes count (overrun count)).backend := rfl
      exact (Calls.none.performAll _).reachable (.progressed moved ih)

/-- A session that does not wait takes in a frame with every picture that it outputs, and issues one
picture less than it takes in. -/
theorem lookahead_overrun :
    Reachable (B := Backend.simulated.recorded) { inner := Device.create .manual none }
        Recorded.SameCalls (overrun 5) ∧
      (overrun 5).scheduler.gop.bPerGroup = 0 ∧ (overrun 5).unissued = 5 := by
  refine ⟨overrun_reachable 5, ?_, ?_⟩
  · decide +kernel
  · decide +kernel

end Encoder

end VideoSchedule

import VideoSchedule.Proofs.Moves

/-!
Steps. A step keeps the invariant and blames nobody but the backend; unless it says what it waits
for, it leaves less work than it found. All that it does is done in moves.
-/

namespace VideoSchedule.Encoder

open VideoSchedule.Action Window Scheduler

variable {B : Backend} {ledger : Ledger B} {start encoder : Encoder B} {mode : BlockingMode}

structure Keeps (before after : Encoder B) : Prop where
  caps : after.caps = before.caps
  mode : after.mode = before.mode
  draining : after.draining = before.draining
  coded : after.coded = before.coded

theorem Keeps.refl (encoder : Encoder B) : Keeps encoder encoder := ⟨rfl, rfl, rfl, rfl⟩

theorem Keeps.trans {before middle after : Encoder B} (first : Keeps before middle)
    (second : Keeps middle after) : Keeps before after :=
  ⟨second.caps.trans first.caps, second.mode.trans first.mode,
    second.draining.trans first.draining, second.coded.trans first.coded⟩

structure Retains (before after : Encoder B) : Prop extends Keeps before after where
  waiting : after.waiting = before.waiting
  endOfStream : after.scheduler.endOfStream = before.scheduler.endOfStream

theorem Retains.canProgress {before after : Encoder B} (retains : Retains before after) :
    after.canProgress = before.canProgress := by
  rw [Encoder.canProgress, retains.waiting, retains.draining, retains.endOfStream,
    Encoder.canProgress]

/-- Bounds the steps until nothing is left to do, see `stepLimit`. -/
def work (encoder : Encoder B) : Nat :=
  3 * encoder.waiting.length + 2 * unissuedIn encoder.window + encoder.queue.size +
    (encoder.draining && !encoder.scheduler.endOfStream).toNat

theorem work_lt_stepLimit (encoder : Encoder B) : encoder.work < encoder.stepLimit := by
  have bounded := Bool.toNat_le (encoder.draining && !encoder.scheduler.endOfStream)
  have sameCount : encoder.unissued = unissuedIn encoder.window := rfl
  have sameSize : encoder.inFlight = encoder.queue.size := rfl
  rw [work, stepLimit, sameCount, sameSize]
  omega

theorem Retains.work_lt {before after : Encoder B} (retains : Retains before after)
    (less : 2 * unissuedIn after.window + after.queue.size <
      2 * unissuedIn before.window + before.queue.size) : after.work < before.work := by
  rw [work, work, retains.waiting, retains.draining, retains.endOfStream]
  omega

theorem Retains.work_le {before after : Encoder B} (retains : Retains before after)
    (le : 2 * unissuedIn after.window + after.queue.size ≤
      2 * unissuedIn before.window + before.queue.size) : after.work ≤ before.work := by
  rw [work, work, retains.waiting, retains.draining, retains.endOfStream]
  omega

inductive Moved (mode : BlockingMode) (before : Encoder B) :
    Except EncodeError Step → Encoder B → Prop where
  | gained {result : Except EncodeError Step} {after : Encoder B} (gains : Gains result)
      (less : after.work < before.work)
      (room : ∀ step, result = .ok step → after.queue.isFull = false) : Moved mode before result after
  | needInput {after : Encoder B} (goesOn : after.scheduler.endOfStream = false)
      (less : after.canProgress = true → after.work < before.work)
      (room : after.queue.isFull = false) : Moved mode before (.ok .needInput) after
  | busy {after : Encoder B} (impatient : mode = .nonBlocking)
      (stalls : after.scheduler.endOfStream = false → after.queue.mode = after.mode →
        after.stalled mode = true) : Moved mode before (.ok .busy) after
  | endOfStream {after : Encoder B} (ended : after.scheduler.endOfStream = true)
      (empty : after.window.handles = []) : Moved mode before (.ok .endOfStream) after

structure Stepped (ledger : Ledger B) (mode : BlockingMode) (before : Encoder B)
    (result : Except EncodeError Step) (after : Encoder B) : Prop where
  sound : after.Sound ledger
  keeps : Keeps before after
  moved : Moved mode before result after
  strides : Strides before result after

theorem Running.of_core {after : Encoder B} (running : encoder.Running ledger)
    (core : after.Core ledger [] encoder.queue.promises) (queue : after.queue = encoder.queue)
    (caps : after.caps = encoder.caps) : after.Running ledger := by
  refine ⟨?_, ?_, ?_, ?_⟩
  · rw [queue]
    exact core
  · rw [queue]
    exact running.capacity
  · rw [queue]
    exact running.room
  · rw [queue, caps]
    exact running.direct

/-! Taking frames in. -/

theorem warnCrop_runs (frame : Frame) (encoder : Encoder B) :
    ∃ cropWarned, Runs (warnCrop frame) encoder (.ok ()) { encoder with cropWarned } := by
  by_cases warns : (!frame.crop.isEmpty && !encoder.cropWarned) = true
  · refine ⟨true, (runs_get _).bind ?_⟩
    rw [if_pos warns]
    exact (runs_note rfl _).bind (runs_modify _ _)
  · refine ⟨encoder.cropWarned, (runs_get _).bind ?_⟩
    rw [if_neg warns]
    exact runs_pure _ _

theorem warnRegions_runs (frame : Frame) (encoder : Encoder B) :
    ∃ roiWarned, Runs (warnRegions frame) encoder (.ok ()) { encoder with roiWarned } := by
  by_cases warns : (frame.roi && !encoder.caps.roi && !encoder.roiWarned) = true
  · refine ⟨true, (runs_get _).bind ?_⟩
    rw [if_pos warns]
    exact (runs_note rfl _).bind (runs_modify _ _)
  · refine ⟨encoder.roiWarned, (runs_get _).bind ?_⟩
    rw [if_neg warns]
    exact runs_pure _ _

theorem unissued_enter {picture : Picture B.Image} (waiting : picture.issued = false)
    (window : Window B.Image) :
    unissuedIn (window.enter picture).2 = unissuedIn window + 1 := by
  rw [unissuedIn, pictures_enter, List.countP_append, unissuedIn]
  simp [waiting]

theorem takeIn_ok {frame : Frame} {rest : List Frame} (waiting : start.waiting = frame :: rest)
    (running : ({ start with waiting := rest } : Encoder B).Running ledger) :
    Ensures (takeIn frame) { start with waiting := rest } fun result after =>
      after.Running ledger ∧ Retains { start with waiting := rest } after ∧
      after.queue = start.queue ∧ unissuedIn after.window ≤ unissuedIn start.window + 1 ∧
      (result = .ok () ∧ Entry start after ∨
        result = .error .allocationFailure ∧ Loses start after) := by
  obtain ⟨cropWarned, cropping⟩ := warnCrop_runs frame { start with waiting := rest }
  obtain ⟨roiWarned, checking⟩ :=
    warnRegions_runs frame { start with waiting := rest, cropWarned }
  have core : ({ start with waiting := rest, cropWarned, roiWarned } : Encoder B).Core ledger []
      start.queue.promises :=
    running.core.congr rfl rfl rfl rfl rfl running.core.ended
  have asking : Runs (onBackend (B.alloc frame))
      ({ start with waiting := rest, cropWarned, roiWarned } : Encoder B)
      (.ok (B.alloc frame start.backend).1)
      { start with
        waiting := rest, cropWarned, roiWarned
        backend := (B.alloc frame start.backend).2 } :=
    onBackend_runs _ _
  cases allocated : (B.alloc frame start.backend).1 with
  | error cause =>
      rw [allocated] at asking
      have coreAfter : ({ start with
          waiting := rest, cropWarned, roiWarned
          backend := (B.alloc frame start.backend).2 } : Encoder B).Core ledger []
            start.queue.promises := by
        obtain ⟨records, holds, carries⟩ := core.records
        have held := ledger.alloc frame holds
        rw [allocated] at held
        exact core.call ⟨records, held, carries⟩
      exact Runs.ensures (cropping.bind (checking.bind (asking.bind ((runs_get _).bind
        (runs_refuse rfl _ _))))) ⟨running.of_core coreAfter rfl rfl, ⟨⟨rfl, rfl, rfl, rfl⟩, rfl, rfl⟩,
          rfl, Nat.le_succ _, Or.inr ⟨rfl, .frame waiting allocated⟩⟩
  | ok image =>
      rw [allocated] at asking
      exact Runs.ensures (cropping.bind (checking.bind (asking.bind (runs_modify _ _))))
        ⟨running.of_core (core.enter frame allocated) rfl rfl, ⟨⟨rfl, rfl, rfl, rfl⟩, rfl, rfl⟩, rfl,
          Nat.le_of_eq (unissued_enter rfl start.window), Or.inl ⟨rfl, .frame waiting allocated⟩⟩

structure Works (start encoder : Encoder B) : Prop where
  keeps : Keeps start encoder
  le : encoder.work ≤ start.work
  less : encoder.canProgress = true → encoder.work < start.work

structure Taken (start encoder : Encoder B) : Prop extends Works start encoder where
  entry : Entry start encoder

inductive Took (start : Encoder B) : Except EncodeError Unit → Encoder B → Prop where
  | taken {after : Encoder B} (taken : Taken start after) : Took start (.ok ()) after
  | lost {after : Encoder B} (keeps : Keeps start after) (less : after.work < start.work)
      (loses : Loses start after) : Took start (.error .allocationFailure) after

theorem takeNext_ok (running : encoder.Running ledger) :
    Ensures takeNext encoder fun result after => after.Running ledger ∧ Took encoder result after := by
  cases waitingEq : encoder.waiting with
  | cons frame rest =>
      have runningRest : ({ encoder with waiting := rest } : Encoder B).Running ledger := by
        refine running.of_core (running.core.congr rfl rfl rfl rfl rfl fun ended => ?_) rfl rfl
        have nothing := (running.core.ended ended).1
        rw [waitingEq] at nothing
        cases nothing
      refine Runs.bind_ensures (runs_get encoder) ?_
      simp only [waitingEq]
      refine Runs.bind_ensures (runs_modify _ _) ((takeIn_ok waitingEq runningRest).mono ?_)
      rintro result after ⟨runningAfter, retains, queue, unissued, outcome⟩
      have keeps : Keeps encoder after :=
        ⟨retains.caps, retains.mode, retains.draining, retains.coded⟩
      have less : after.work < encoder.work := by
        rw [work, work, retains.waiting, retains.draining, retains.endOfStream, queue, waitingEq,
          List.length_cons]
        dsimp only at unissued ⊢
        omega
      rcases outcome with ⟨rfl, entry⟩ | ⟨rfl, loses⟩
      · exact ⟨runningAfter, .taken ⟨⟨keeps, Nat.le_of_lt less, fun _ => less⟩, entry⟩⟩
      · exact ⟨runningAfter, .lost keeps less loses⟩
  | nil =>
      refine Runs.bind_ensures (runs_get encoder) ?_
      simp only [waitingEq]
      by_cases signals : (encoder.draining && !encoder.scheduler.endOfStream) = true
      · rw [if_pos signals]
        obtain ⟨isDraining, goesOn⟩ : encoder.draining = true ∧
            encoder.scheduler.endOfStream = false := by
          simpa using signals
        have less : encoder.signalEnd.work < encoder.work := by
          have after : (encoder.signalEnd.draining &&
              !encoder.signalEnd.scheduler.endOfStream) = false := by
            simp [signalEnd, Scheduler.signalEnd]
          rw [work, work, signals, after]
          exact Nat.lt_succ_self _
        refine (runs_modify _ _).ensures ⟨running.of_core ?_ rfl rfl, .taken ⟨⟨⟨rfl, rfl, rfl, rfl⟩,
          Nat.le_of_lt less, fun _ => less⟩, .ending waitingEq isDraining goesOn⟩⟩
        exact running.core.congr rfl rfl rfl rfl rfl fun _ => ⟨waitingEq, isDraining⟩
      · rw [if_neg signals]
        refine (runs_pure _ _).ensures ⟨running, .taken ⟨⟨Keeps.refl _, Nat.le_refl _,
          fun progress => ?_⟩, .nothing⟩⟩
        simp only [canProgress, waitingEq, List.isEmpty_nil, Bool.not_true, Bool.false_or] at progress
        exact absurd progress signals

/-! Within a step. -/

theorem Works.retain (works : Works start encoder) {after : Encoder B}
    (retains : Retains encoder after) (le : after.work ≤ encoder.work) : Works start after := by
  refine ⟨works.keeps.trans retains.toKeeps, Nat.le_trans le works.le, fun progress => ?_⟩
  rw [retains.canProgress] at progress
  exact Nat.lt_of_le_of_lt le (works.less progress)

theorem Entry.queue (entry : Entry start encoder) : encoder.queue = start.queue := by
  cases entry <;> rfl

theorem Entry.encodeOrder (entry : Entry start encoder) :
    encoder.scheduler.encodeOrder = start.scheduler.encodeOrder := by
  cases entry <;> rfl

theorem Entry.unissued (entry : Entry start encoder) :
    unissuedIn encoder.window ≤ unissuedIn start.window + 1 := by
  cases entry with
  | nothing => exact Nat.le_succ _
  | frame => exact Nat.le_of_eq (unissued_enter rfl start.window)
  | ending => exact Nat.le_succ _

theorem Entry.idle (entry : Entry start encoder) (idle : start.canProgress = false) :
    encoder = start := by
  cases entry with
  | nothing => rfl
  | frame waiting => simp [canProgress, waiting] at idle
  | ending _ draining goesOn => simp [canProgress, draining, goesOn] at idle

structure Primed (start encoder : Encoder B) : Prop extends Works start encoder where
  went : ∃ middle, Entry start middle ∧
    Moves middle middle.queue.promises [] encoder encoder.queue.promises
  calm : encoder.scheduler.encodeOrder = start.scheduler.encodeOrder
  mode : encoder.queue.mode = start.queue.mode
  slack : start.queue.isFull = false →
    unissuedIn encoder.window ≤ unissuedIn start.window ∨ encoder.Slack
  picks : start.canProgress = false → start.CanIssue →
    unissuedIn encoder.window < unissuedIn start.window

theorem Taken.primed (taken : Taken start encoder) (slack : encoder.Slack)
    (none : encoder.CanIssue → False) : Primed start encoder := by
  refine ⟨taken.toWorks, ⟨encoder, taken.entry, .none⟩, taken.entry.encodeOrder,
    congrArg OutputQueue.mode taken.entry.queue, fun _ => Or.inr slack, ?_⟩
  intro idle can
  rw [← taken.entry.idle idle] at can
  exact (none can).elim

theorem Taken.gained (taken : Taken start encoder) {result : Except EncodeError Step}
    {after : Encoder B} (running : after.Running ledger) (retains : Retains encoder after)
    (gains : Gains result) (less : after.work < encoder.work)
    (room : ∀ step, result = .ok step → after.queue.isFull = false) {picked : Encoder B}
    {flight : List (Handle × B.Promise)}
    (picks : Moves encoder encoder.queue.promises [] picked flight)
    (calm : picked.scheduler.encodeOrder = encoder.scheduler.encodeOrder)
    (last : Last picked flight (packetsOf result) after after.queue.promises)
    (slips : ∀ cause, result = .error cause → Slips picked after)
    (queue : after.queue = encoder.queue)
    (unissued : unissuedIn after.window + 1 = unissuedIn encoder.window) :
    Stepped ledger mode start result after := by
  refine ⟨Or.inl running, taken.keeps.trans retains.toKeeps,
    .gained gains (Nat.lt_of_lt_of_le less taken.le) room,
    .went taken.entry picks (calm.trans taken.entry.encodeOrder) last ⟨?_, ?_, ?_⟩ slips⟩
  · rw [queue, taken.entry.queue]
    exact fun _ => id
  · have bounded := taken.entry.unissued
    exact fun _ => Or.inl (by omega)
  · intro idle _
    rw [← taken.entry.idle idle]
    exact Nat.lt_of_succ_le (Nat.le_of_eq unissued)

theorem Primed.rests (primed : Primed start encoder) (running : encoder.Running ledger)
    {step : Step} (plain : packetsOf (.ok step) = [])
    (room : start.queue.mode = .blocking → start.queue.isFull = false → encoder.queue.isFull = false)
    (moved : Moved mode start (.ok step) encoder) : Stepped ledger mode start (.ok step) encoder := by
  obtain ⟨middle, entry, picks⟩ := primed.went
  refine ⟨Or.inl running, primed.keeps, moved,
    .went entry picks primed.calm ?_ ⟨room, primed.slack, primed.picks⟩ (by simp)⟩
  rw [plain]
  exact .none

theorem Primed.waits (primed : Primed start encoder) (running : encoder.Running ledger)
    (room : encoder.queue.isFull = false) (goesOn : encoder.scheduler.endOfStream = false) :
    Stepped ledger mode start (.ok .needInput) encoder :=
  primed.rests running rfl (fun _ _ => room) (.needInput goesOn primed.less room)

theorem Running.not_full_of_empty (running : encoder.Running ledger)
    (empty : encoder.queue.promises = []) : encoder.queue.isFull = false := by
  have capacity := running.capacity
  rw [OutputQueue.isFull, OutputQueue.size, empty, decide_eq_false_iff_not]
  exact Nat.not_le.mpr capacity

theorem Primed.finishes (primed : Primed start encoder) (running : encoder.Running ledger)
    (empty : encoder.queue.promises = []) (ended : encoder.scheduler.endOfStream = true)
    (issued : ∀ handle picture, encoder.window.find? handle = some picture →
      picture.issued = true) :
    Ensures (do finishStream; return .endOfStream) encoder (Stepped ledger mode start) := by
  have core := running.core
  rw [empty] at core
  obtain ⟨after, finishing, finishes, records⟩ := finishStream_ok core issued
  obtain ⟨middle, entry, picks⟩ := primed.went
  have finish := Move.finish core ended issued finishes
  have room := running.not_full_of_empty empty
  cases finishes with
  | @retired gone window pictures handles =>
      have unissued : unissuedIn window = 0 := by
        rw [unissuedIn, pictures_eq_nil handles]
        rfl
      refine Runs.bind_ensures finishing ((runs_pure _ _).ensures
        ⟨Or.inr ⟨handles, empty, (core.ended ended).1, Or.inr ⟨ended, (core.ended ended).2⟩, records⟩,
          primed.keeps.trans ⟨rfl, rfl, rfl, rfl⟩, .endOfStream ended handles,
          .went entry picks primed.calm ?_ ⟨fun _ _ => room, fun _ => Or.inr (Or.inl ?_), ?_⟩
            (by simp)⟩)
      · have emptyAfter : (({ encoder with
            scheduler := { encoder.scheduler with
              past := { encoder.scheduler.past with recent := [] } } } : Encoder B).discard gone
                window).queue.promises = [] := empty
        rw [emptyAfter, empty]
        exact .move finish
      · exact Nat.le_trans (Nat.le_of_eq unissued) (Nat.zero_le _)
      · intro idle can
        exact Nat.lt_of_le_of_lt (Nat.le_trans (Nat.le_of_eq unissued) (Nat.zero_le _))
          (primed.picks idle can)

/-! Scheduling within a session. -/

inductive Found (ledger : Ledger B) (encoder : Encoder B) (flight : List (Handle × B.Promise)) :
    Pick → Scheduler → Window B.Image → Prop where
  | picture (handle : Handle) {scheduler : Scheduler} {window : Window B.Image}
      (ready : ({ encoder with scheduler, window } : Encoder B).Ready ledger handle flight)
      (schedules : Schedules encoder.scheduler encoder.window scheduler window)
      (picks : Runs pickNext (encoder.scheduler, encoder.window) (.ok (.picture handle))
        (scheduler, window)) : Found ledger encoder flight (.picture handle) scheduler window
  | needMoreInput (goesOn : encoder.scheduler.endOfStream = false) (slack : encoder.Slack)
      (none : encoder.CanIssue → False) :
      Found ledger encoder flight .needMoreInput encoder.scheduler encoder.window
  | pending (occupied : flight ≠ []) (slack : encoder.Slack)
      (none : encoder.CanIssue → False) :
      Found ledger encoder flight .pending encoder.scheduler encoder.window
  | endOfStream (ended : encoder.scheduler.endOfStream = true)
      (issued : ∀ handle picture, encoder.window.find? handle = some picture →
        picture.issued = true) (slack : encoder.Slack) (none : encoder.CanIssue → False) :
      Found ledger encoder flight .endOfStream encoder.scheduler encoder.window

theorem slack_of_none (none : unissuedIn encoder.window = 0) : encoder.Slack :=
  Or.inl (Nat.le_trans (Nat.le_of_eq none) (Nat.zero_le _))

theorem unissued_of_issued
    (issued : ∀ handle picture, encoder.window.find? handle = some picture →
      picture.issued = true) : unissuedIn encoder.window = 0 := by
  refine List.countP_eq_zero.mpr fun picture member => ?_
  obtain ⟨entry, isEntry, rfl⟩ := List.mem_map.mp member
  simp [issued entry.1 entry.2 (find?_of_mem_entries isEntry)]

theorem pickNext_found {flight : List (Handle × B.Promise)}
    (core : encoder.Core ledger [] flight) :
    ∃ pick scheduler window, Runs (onSchedule pickNext) encoder (.ok pick)
        { encoder with scheduler, window } ∧ Found ledger encoder flight pick scheduler window := by
  obtain ⟨laid, fresh, arranged⟩ := core.arranged
  obtain ⟨pick, scheduler, window, runs, picked⟩ := pickNext_ok arranged core.tidy
  refine ⟨pick, scheduler, window, onSchedule_runs runs, ?_⟩
  cases picked with
  | picture schedules pickable =>
      exact .picture _ (core.ready schedules pickable) schedules runs
  | needMoreInput goesOn few =>
      exact .needMoreInput goesOn few fun can => can.picks_picture runs (by simp)
  | pending ended none found issued incomplete =>
      refine .pending (fun empty => ?_) (slack_of_none none) fun can => can.picks_picture runs (by simp)
      have flying := (core.flying _).mpr ⟨_, found, issued, incomplete⟩
      simp [empty] at flying
  | endOfStream ended issued =>
      exact .endOfStream ended issued (slack_of_none (unissued_of_issued issued))
        fun can => can.picks_picture runs (by simp)

theorem unissued_schedules {scheduler : Scheduler} {window : Window B.Image}
    (schedules : Schedules encoder.scheduler encoder.window scheduler window) :
    unissuedIn window = unissuedIn encoder.window := by
  obtain ⟨touched, rewrites, _⟩ := schedules.rewrites
  have same := pictures_map_eq_of_plain_eq rewrites.plain Picture.issued fun _ => rfl
  have counted := congrArg (List.countP fun issued => !issued) same
  rwa [List.countP_map, List.countP_map] at counted

/-! Several pictures in flight. -/

inductive Filled (ledger : Ledger B) (mode : BlockingMode) (start before : Encoder B) :
    Except EncodeError (Option Pick) → Encoder B → Prop where
  | occupied {after : Encoder B} (running : after.Running ledger) (primed : Primed start after)
      (nonempty : after.queue.promises ≠ []) : Filled ledger mode start before (.ok none) after
  | refused {cause : EncodeError} {after : Encoder B}
      (stepped : Stepped ledger mode start (.error cause) after) :
      Filled ledger mode start before (.error cause) after
  | needMoreInput (primed : Primed start before) (room : before.queue.isFull = false)
      (goesOn : before.scheduler.endOfStream = false) :
      Filled ledger mode start before (.ok (some .needMoreInput)) before
  | pending (primed : Primed start before) (nonempty : before.queue.promises ≠ []) :
      Filled ledger mode start before (.ok (some .pending)) before
  | endOfStream (primed : Primed start before)
      (ended : before.scheduler.endOfStream = true)
      (issued : ∀ handle picture, before.window.find? handle = some picture →
        picture.issued = true) :
      Filled ledger mode start before (.ok (some .endOfStream)) before

theorem add_runs {π : Type} {queue : OutputQueue π} (notFull : queue.isFull = false) (promise : π) :
    Runs (OutputQueue.add promise) queue (.ok ())
      { queue with promises := queue.promises ++ [promise] } := by
  refine (runs_get _).bind ?_
  rw [notFull]
  exact runs_modify _ _

def place (encodeOrder : Nat) : Pick → Action (Encoder B) (Option Pick)
  | .picture handle => do
    let promise ← issue handle encodeOrder
    onQueue (OutputQueue.add (handle, promise))
    return none
  | other => return some other

theorem fillPipeline_runs {pick : Pick} {picked after : Encoder B}
    {result : Except EncodeError (Option Pick)} (notFull : encoder.queue.isFull = false)
    (picking : Runs (onSchedule pickNext) encoder (.ok pick) picked)
    (placing : Runs (place (encoder.scheduler.encodeOrderFor encoder.queue.size) pick) picked result
      after) : Runs fillPipeline encoder result after := by
  refine (runs_get _).bind ?_
  rw [notFull]
  refine picking.bind ?_
  cases pick <;> exact placing

theorem Answers.retains {handle : Handle} {encodeOrder : Nat} {scheduler : Scheduler}
    {window : Window B.Image} {answer : Except EncodeError B.Promise} {after : Encoder B}
    (answers : Answers { encoder with scheduler, window } handle encodeOrder answer after)
    (endOfStream : scheduler.endOfStream = encoder.scheduler.endOfStream) :
    Retains encoder after ∧ after.queue = encoder.queue := by
  cases answers <;> exact ⟨⟨⟨rfl, rfl, rfl, rfl⟩, rfl, endOfStream⟩, rfl⟩

theorem Answers.encodeOrder {handle : Handle} {encodeOrder : Nat} {scheduler : Scheduler}
    {window : Window B.Image} {answer : Except EncodeError B.Promise} {after : Encoder B}
    (answers : Answers { encoder with scheduler, window } handle encodeOrder answer after) :
    after.scheduler.encodeOrder = scheduler.encodeOrder := by
  cases answers <;> rfl

theorem Taken.issued (taken : Taken start encoder) (running : encoder.Running ledger)
    (notFull : encoder.queue.isFull = false) {handle : Handle} {scheduler : Scheduler}
    {window : Window B.Image} {promise : B.Promise} {after : Encoder B}
    (picks : Runs pickNext (encoder.scheduler, encoder.window) (.ok (.picture handle))
      (scheduler, window))
    (schedules : Schedules encoder.scheduler encoder.window scheduler window)
    (answers : Answers { encoder with scheduler, window } handle
      (encoder.scheduler.encodeOrderFor encoder.queue.size) (.ok promise) after)
    (counted : unissuedIn after.window + 1 = unissuedIn encoder.window) :
    Primed start { after with
      queue := { after.queue with promises := after.queue.promises ++ [(handle, promise)] } } := by
  obtain ⟨retains, queue⟩ := answers.retains schedules.endOfStream
  have free : encoder.queue.promises.length < encoder.queue.capacity := by
    rw [OutputQueue.isFull, decide_eq_false_iff_not] at notFull
    exact Nat.not_le.mp notFull
  have retainsAll : Retains encoder { after with
      queue := { after.queue with promises := after.queue.promises ++ [(handle, promise)] } } :=
    ⟨⟨retains.caps, retains.mode, retains.draining, retains.coded⟩, retains.waiting,
      retains.endOfStream⟩
  have bounded := taken.entry.unissued
  refine ⟨taken.retain retainsAll (retainsAll.work_le ?_), ⟨encoder, taken.entry, ?_⟩,
    (answers.encodeOrder.trans schedules.encodeOrder).trans taken.entry.encodeOrder, ?_,
    fun _ => Or.inl ?_, fun idle _ => ?_⟩
  · rw [queue]
    simp only [OutputQueue.size, List.length_append, List.length_singleton]
    omega
  · have promisesEq : after.queue.promises = encoder.queue.promises :=
      congrArg OutputQueue.promises queue
    rw [promisesEq]
    exact .single (.issue running.core free picks answers)
  · rw [queue, taken.entry.queue]
  · dsimp only
    omega
  · rw [← taken.entry.idle idle]
    exact Nat.lt_of_succ_le (Nat.le_of_eq counted)

theorem fillPipeline_ok (taken : Taken start encoder) (running : encoder.Running ledger)
    (pipelined : encoder.caps.pipelined = true) :
    Ensures fillPipeline encoder (Filled ledger mode start encoder) := by
  cases full : encoder.queue.isFull with
  | true =>
      have runs : Runs fillPipeline encoder (.ok none) encoder := by
        refine (runs_get _).bind ?_
        rw [full]
        exact runs_pure _ _
      have queue := taken.entry.queue
      refine runs.ensures (.occupied running ⟨taken.toWorks, ⟨encoder, taken.entry, .none⟩,
        taken.entry.encodeOrder, congrArg OutputQueue.mode queue, fun room => ?_, fun _ can => ?_⟩
          fun empty => ?_)
      · rw [← queue, full] at room
        cases room
      · rw [queue] at full
        exact absurd full can.not_full
      · rw [running.not_full_of_empty empty] at full
        cases full
  | false =>
      obtain ⟨pick, scheduler, window, picking, found⟩ := pickNext_found running.core
      have filling : ∀ {result : Except EncodeError (Option Pick)} {after : Encoder B},
          Runs (place (encoder.scheduler.encodeOrderFor encoder.queue.size) pick)
            { encoder with scheduler, window } result after →
          Runs fillPipeline encoder result after := fillPipeline_runs full picking
      cases found with
      | picture handle ready schedules picks =>
          obtain ⟨answer, after, issuing, answers, issued, counted⟩ :=
            issue_ok ready (encoder.scheduler.encodeOrderFor encoder.queue.size)
          rw [unissued_schedules schedules] at counted
          obtain ⟨retains, queue⟩ := answers.retains schedules.endOfStream
          cases issued with
          | refused order cause core =>
              have move := Move.refuse running.core picks answers
              have last : Last encoder encoder.queue.promises [] after after.queue.promises := by
                rw [queue]
                exact .move move
              exact (filling (Runs.bind_error issuing)).ensures (.refused (taken.gained
                (running.of_core core queue retains.caps) retains (.failed rfl)
                (retains.work_lt (by rw [queue]; omega)) (by simp) .none rfl last
                (fun _ _ => .refuse answers) queue counted))
          | accepted promise core =>
              have adding : Runs (onQueue (OutputQueue.add (handle, promise))) after (.ok ())
                  { after with
                    queue := { after.queue with
                      promises := after.queue.promises ++ [(handle, promise)] } } :=
                onQueue_runs (add_runs (by rw [queue]; exact full) _)
              refine (filling (issuing.bind (adding.bind (runs_pure _ _)))).ensures
                (.occupied ⟨?_, ?_, ?_, ?_⟩
                  (taken.issued running full picks schedules answers counted) (by simp))
              · rw [queue]
                exact core.congr rfl rfl rfl rfl rfl core.ended
              · rw [queue]
                exact running.capacity
              · rw [OutputQueue.isFull, decide_eq_false_iff_not] at full
                rw [queue]
                simp only [OutputQueue.size, List.length_append, List.length_singleton] at full ⊢
                omega
              · intro direct
                rw [retains.caps, pipelined] at direct
                cases direct
      | needMoreInput goesOn slack none =>
          exact (filling (runs_pure _ _)).ensures (.needMoreInput (taken.primed slack none) full goesOn)
      | pending occupied slack none =>
          exact (filling (runs_pure _ _)).ensures (.pending (taken.primed slack none) occupied)
      | endOfStream ended issued slack none =>
          exact (filling (runs_pure _ _)).ensures
            (.endOfStream (taken.primed slack none) ended issued)

theorem pollQueue_runs {front : Handle × B.Promise} {rest : List (Handle × B.Promise)}
    (queued : encoder.queue.promises = front :: rest) (mode : BlockingMode) :
    Runs (pollQueue mode) encoder (.ok (some (front.1, (B.sync front.2 encoder.backend).1)))
        { encoder with
          queue := { encoder.queue with promises := rest }
          backend := (B.sync front.2 encoder.backend).2 } ∨
      (mode = .nonBlocking ∧ encoder.queue.mode ≠ .blocking ∧
        B.isReady encoder.backend front.2 = false) ∧
          Runs (pollQueue mode) encoder (.ok none) encoder := by
  by_cases waits : encoder.queue.mode = .blocking ∨ mode = .blocking ∨
      B.isReady encoder.backend front.2 = true
  · left
    constructor <;> simp [pollQueue, Action.update, OutputQueue.poll, OutputQueue.take?, queued, waits]
  · right
    have impatient : mode = .nonBlocking := by
      cases mode with
      | blocking => simp at waits
      | nonBlocking => rfl
    rw [not_or, not_or, Bool.not_eq_true] at waits
    refine ⟨⟨impatient, waits.1, waits.2.2⟩, ?_⟩
    constructor <;> simp [pollQueue, Action.update, OutputQueue.poll, OutputQueue.take?, queued, waits]

def outputFront (mode : BlockingMode) : Action (Encoder B) Step := do
  match ← pollQueue mode with
  | none => return .busy
  | some (handle, ended) =>
    let picture ← onWindow (Window.fetch handle)
    let encodeOrder ← Action.require picture.encodeOrder .invalidInternalState
    onScheduler (Scheduler.advance encodeOrder)
    output handle ended

theorem Delivers.retains {handle : Handle} {ended : Except BackendError B.Coded}
    {result : Except EncodeError Step} {backend : B.State} {encodeOrder : Nat}
    {queue : OutputQueue (Handle × B.Promise)} {after : Encoder B}
    (delivers : Delivers { encoder with
      queue, backend
      scheduler := encoder.scheduler.advance encodeOrder } handle ended result after) :
    Retains encoder after ∧ after.queue = queue := by
  cases delivers <;> exact ⟨⟨⟨rfl, rfl, rfl, rfl⟩, rfl, rfl⟩, rfl⟩

theorem Delivers.slack {handle : Handle} {ended : Except BackendError B.Coded}
    {result : Except EncodeError Step} {backend : B.State} {encodeOrder : Nat}
    {queue : OutputQueue (Handle × B.Promise)} {after : Encoder B}
    (delivers : Delivers { encoder with
      queue, backend
      scheduler := encoder.scheduler.advance encodeOrder } handle ended result after)
    (unissued : unissuedIn after.window = unissuedIn encoder.window) (slack : encoder.Slack) :
    after.Slack := by
  rw [Slack, unissued]
  cases delivers <;> exact slack

theorem Running.stalled (running : encoder.Running ledger) {front : Handle × B.Promise}
    {rest : List (Handle × B.Promise)} (queued : encoder.queue.promises = front :: rest)
    (full : encoder.queue.isFull = true) (same : encoder.queue.mode = encoder.mode)
    (unblocked : encoder.queue.mode ≠ .blocking)
    (incomplete : B.isReady encoder.backend front.2 = false) :
    encoder.stalled .nonBlocking = true := by
  have pipelined : encoder.caps.pipelined = true := by
    cases direct : encoder.caps.pipelined with
    | true => rfl
    | false => simp [running.direct direct] at queued
  rw [same] at unblocked
  simp [Encoder.stalled, pipelined, full, waits, unblocked, OutputQueue.frontIsReady, queued, incomplete]

theorem outputFront_ok (primed : Primed start encoder) (running : encoder.Running ledger)
    (occupied : encoder.queue.promises ≠ [])
    (due : encoder.queue.isFull = true ∨ encoder.scheduler.endOfStream = true) :
    Ensures (outputFront mode) encoder (Stepped ledger mode start) := by
  cases queued : encoder.queue.promises with
  | nil => exact absurd queued occupied
  | cons front rest =>
      rcases pollQueue_runs queued mode with polling | ⟨⟨impatient, unblocked, incomplete⟩, polling⟩
      · have core := running.core
        rw [queued] at core
        obtain ⟨picture, found, issued, _⟩ := (core.sync.flying front.1).mp (by simp)
        obtain ⟨encodeOrder, numbered⟩ :=
          Option.isSome_iff_exists.mp (core.numbered front.1 picture found issued)
        have coreNext : ({ encoder with
            queue := { encoder.queue with promises := rest }
            backend := (B.sync front.2 encoder.backend).2
            scheduler := encoder.scheduler.advance encodeOrder } : Encoder B).Core ledger [front.1]
              rest :=
          core.sync.congr rfl rfl rfl rfl rfl core.ended
        obtain ⟨result, after, outputting, delivers, coreAfter, gains, counted⟩ :=
          output_ok coreNext (B.sync front.2 encoder.backend).1
        have fetching : Runs (onWindow (Window.fetch front.1))
            ({ encoder with
              queue := { encoder.queue with promises := rest }
              backend := (B.sync front.2 encoder.backend).2 } : Encoder B) (.ok picture)
            { encoder with
              queue := { encoder.queue with promises := rest }
              backend := (B.sync front.2 encoder.backend).2 } :=
          onWindow_runs (fetch_runs found)
        refine (polling.bind (fetching.bind ((runs_require numbered _ _).bind
          ((runs_modify _ _).bind outputting)))).ensures ?_
        obtain ⟨retains, queue⟩ := delivers.retains
        obtain ⟨middle, entry, picks⟩ := primed.went
        have move := Move.deliver core found numbered delivers
        rw [queued] at picks
        have room := running.room
        have capacity := running.capacity
        simp only [OutputQueue.size, queued, List.length_cons] at room
        have less : after.work < encoder.work := by
          refine retains.work_lt ?_
          rw [queue, counted]
          simp only [OutputQueue.size, queued, List.length_cons]
          omega
        have left : after.queue.isFull = false := by
          rw [queue, OutputQueue.isFull, decide_eq_false_iff_not]
          exact Nat.not_le.mpr room
        refine ⟨Or.inl ⟨?_, ?_, ?_, fun direct => ?_⟩, primed.keeps.trans retains.toKeeps,
          .gained gains (Nat.lt_of_lt_of_le less primed.le) fun _ _ => left,
          .went entry picks primed.calm ?_ ⟨fun _ _ => left, fun full => (primed.slack full).imp
            (Nat.le_trans (Nat.le_of_eq counted)) (delivers.slack counted), fun idle can =>
              Nat.lt_of_le_of_lt (Nat.le_of_eq counted) (primed.picks idle can)⟩
            fun _ failed => .deliver (failed ▸ delivers)⟩
        · rw [queue]
          exact coreAfter
        · rw [queue]
          exact capacity
        · rw [queue]
          exact Nat.le_of_succ_le room
        · rw [retains.caps] at direct
          rw [running.direct direct] at queued
          cases queued
        · rw [queue]
          exact .move move
      · refine Runs.bind_ensures polling ((runs_pure _ _).ensures (primed.rests running rfl
          (fun blocking => ?_) (.busy impatient fun goesOn same => ?_)))
        · rw [primed.mode] at unblocked
          exact absurd blocking unblocked
        · rw [impatient]
          exact running.stalled queued (due.resolve_right (by simp [goesOn])) same unblocked incomplete

/-- What `pipelinedStep` does with pictures in flight: unless the pipeline can take more, the oldest
is due. -/
def outputDue (mode : BlockingMode) (encoder : Encoder B) : Action (Encoder B) Step :=
  if !encoder.queue.isFull && !encoder.scheduler.endOfStream then return .needInput
  else outputFront mode

theorem outputDue_ok (primed : Primed start encoder) (running : encoder.Running ledger)
    (occupied : encoder.queue.promises ≠ []) :
    Ensures (outputDue mode encoder) encoder (Stepped ledger mode start) := by
  unfold outputDue
  by_cases takesMore : (!encoder.queue.isFull && !encoder.scheduler.endOfStream) = true
  · rw [if_pos takesMore]
    rw [Bool.and_eq_true, Bool.not_eq_true', Bool.not_eq_true'] at takesMore
    exact (runs_pure _ _).ensures (primed.waits running takesMore.1 takesMore.2)
  · rw [if_neg takesMore]
    refine outputFront_ok primed running occupied ?_
    cases full : encoder.queue.isFull with
    | true => exact Or.inl rfl
    | false => exact Or.inr (by simpa [full] using takesMore)

theorem pipelinedStep_ok (taken : Taken start encoder) (running : encoder.Running ledger)
    (pipelined : encoder.caps.pipelined = true) :
    Ensures (pipelinedStep mode) encoder (Stepped ledger mode start) := by
  have nonempty : ∀ {session : Encoder B}, session.queue.promises ≠ [] →
      session.queue.isEmpty = false := by
    intro session occupied
    simpa [OutputQueue.isEmpty] using occupied
  have occupiedOf : encoder.queue.isEmpty = false → encoder.queue.promises ≠ [] := by
    intro busy
    simpa [OutputQueue.isEmpty] using busy
  have filling : Ensures fillPipeline encoder (Filled ledger mode start encoder) :=
    fillPipeline_ok taken running pipelined
  refine filling.bind (fun pick session filled => ?_) fun cause session filled => ?_
  · refine Runs.bind_ensures (runs_get _) ?_
    cases filled with
    | occupied runningAfter primed occupied =>
        rw [nonempty occupied]
        exact outputDue_ok primed runningAfter occupied
    | needMoreInput primed room goesOn =>
        cases empty : encoder.queue.isEmpty with
        | true => exact (runs_pure _ _).ensures (primed.waits running room goesOn)
        | false => exact outputDue_ok primed running (occupiedOf empty)
    | pending primed occupied =>
        rw [nonempty occupied]
        exact outputDue_ok primed running occupied
    | endOfStream primed ended issued =>
        cases empty : encoder.queue.isEmpty with
        | true => exact primed.finishes running (List.isEmpty_iff.mp empty) ended issued
        | false => exact outputDue_ok primed running (occupiedOf empty)
  · cases filled with
    | refused stepped => exact stepped

/-! One picture at a time. -/

theorem Answers.found {handle : Handle} {encodeOrder : Nat} {promise : B.Promise}
    {after : Encoder B} (answers : Answers encoder handle encodeOrder (.ok promise) after) :
    ∃ picture, after.window.find? handle = some picture ∧
      picture.encodeOrder = some encodeOrder := by
  cases answers with
  | accepted asks answer =>
      have found := asks.found
      rw [find?_adjust, if_pos rfl] at found
      obtain ⟨picture, found, _⟩ := Option.map_eq_some_iff.mp found
      exact ⟨_, find?_adjust_self (find?_adjust_self found _) _, rfl⟩

theorem directStep_ok (taken : Taken start encoder) (running : encoder.Running ledger)
    (direct : encoder.caps.pipelined = false) :
    Ensures directStep encoder (Stepped ledger mode start) := by
  have empty := running.direct direct
  have core := running.core
  rw [empty] at core
  obtain ⟨pick, scheduler, window, picking, found⟩ := pickNext_found core
  refine Runs.bind_ensures (runs_get _) (Runs.bind_ensures picking ?_)
  cases found with
  | picture handle ready schedules picks =>
      obtain ⟨answer, middle, issuing, answers, issued, counted⟩ :=
        issue_ok ready (encoder.scheduler.encodeOrderFor 0)
      rw [unissued_schedules schedules] at counted
      obtain ⟨retains, queue⟩ := answers.retains schedules.endOfStream
      cases issued with
      | refused order cause coreAfter =>
          have last : Last encoder encoder.queue.promises [] middle middle.queue.promises := by
            rw [queue, empty]
            exact .move (.refuse core picks answers)
          refine (Runs.bind_error issuing).ensures (taken.gained
            (running.of_core ?_ queue retains.caps) retains (.failed rfl)
            (retains.work_lt (by rw [queue]; omega)) (by simp) .none rfl last
            (fun _ _ => .refuse answers) queue counted)
          rw [empty]
          exact coreAfter
      | accepted promise coreAfter =>
          have coreNext : ({ middle with
              backend := (B.sync promise middle.backend).2
              scheduler := middle.scheduler.advance (encoder.scheduler.encodeOrderFor 0) } :
                Encoder B).Core ledger [handle] [] :=
            coreAfter.sync.congr rfl rfl rfl rfl rfl coreAfter.ended
          obtain ⟨result, after, outputting, delivers, coreLast, gains, same⟩ :=
            output_ok coreNext (B.sync promise middle.backend).1
          have syncing : Runs (onBackend (B.sync promise))
              ({ middle with
                scheduler := middle.scheduler.advance (encoder.scheduler.encodeOrderFor 0) } :
                  Encoder B)
              (.ok (B.sync promise middle.backend).1)
              { middle with
                backend := (B.sync promise middle.backend).2
                scheduler := middle.scheduler.advance (encoder.scheduler.encodeOrderFor 0) } :=
            onBackend_runs _ _
          have outputs : Retains middle after ∧ after.queue = middle.queue := delivers.retains
          obtain ⟨picture, foundAfter, numbered⟩ := answers.found
          have free : ([] : List (Handle × B.Promise)).length < encoder.queue.capacity :=
            running.capacity
          have deliver : Move middle [(handle, promise)] (packetsOf result) after [] :=
            .deliver coreAfter foundAfter numbered delivers
          have issues : Moves encoder encoder.queue.promises [] middle [(handle, promise)] := by
            rw [empty]
            exact .single (.issue core free picks answers)
          have queueAfter : after.queue = encoder.queue := outputs.2.trans queue
          have retainsAll : Retains encoder after :=
            ⟨retains.toKeeps.trans outputs.1.toKeeps, outputs.1.waiting.trans retains.waiting,
              outputs.1.endOfStream.trans retains.endOfStream⟩
          have countedAfter : unissuedIn after.window + 1 = unissuedIn encoder.window :=
            (congrArg (· + 1) same).trans counted
          refine (issuing.bind ((runs_modify _ _).bind (syncing.bind outputting))).ensures
            (taken.gained (running.of_core ?_ queueAfter retainsAll.caps) retainsAll gains
              (retainsAll.work_lt (by rw [queueAfter]; omega)) (fun _ _ => ?_) issues
              (answers.encodeOrder.trans schedules.encodeOrder) ?_
              (fun _ failed => .deliver (failed ▸ delivers)) queueAfter countedAfter)
          · rw [empty]
            exact coreLast
          · rw [queueAfter]
            exact running.not_full_of_empty empty
          · rw [queueAfter, empty]
            exact .move deliver
  | needMoreInput goesOn slack none =>
      exact (runs_pure _ _).ensures ((taken.primed slack none).waits running
        (running.not_full_of_empty empty) goesOn)
  | pending occupied => exact absurd rfl occupied
  | endOfStream ended issued slack none =>
      exact (taken.primed slack none).finishes running empty ended issued

/-! Whole steps. -/

theorem advanceStep_ok (running : encoder.Running ledger) :
    Ensures (advanceStep mode) encoder (Stepped ledger mode encoder) := by
  refine (takeNext_ok running).bind ?_ ?_
  · rintro _ session ⟨runningNext, took⟩
    cases took with
    | taken taken =>
        refine Runs.bind_ensures (runs_get _) ?_
        cases empty : session.window.isEmpty with
        | true =>
            have handles := Window.isEmpty_iff.mp empty
            have slack : session.Slack :=
              slack_of_none (by rw [unissuedIn, pictures_eq_nil handles]; rfl)
            have queued : session.queue.promises = [] := by
              cases queued : session.queue.promises with
              | nil => rfl
              | cons front rest =>
                  obtain ⟨picture, found, _⟩ := (runningNext.core.flying front.1).mp (by simp [queued])
                  have live := mem_handles_of_find? found
                  rw [handles] at live
                  cases live
            have room := runningNext.not_full_of_empty queued
            have primed := taken.primed slack fun can => can.not_empty handles
            cases ended : session.scheduler.endOfStream with
            | true =>
                exact (runs_pure _ _).ensures (primed.rests runningNext rfl (fun _ _ => room)
                  (.endOfStream ended handles))
            | false => exact (runs_pure _ _).ensures (primed.waits runningNext room ended)
        | false =>
            cases pipelined : session.caps.pipelined with
            | true => exact pipelinedStep_ok taken runningNext pipelined
            | false => exact directStep_ok taken runningNext pipelined
  · rintro cause session ⟨runningNext, took⟩
    cases took with
    | lost keeps less loses =>
        exact ⟨Or.inl runningNext, keeps, .gained (.failed rfl) less (by simp), .lost loses rfl⟩

theorem strides_refl {step : Step} (plain : packetsOf (.ok step) = [])
    (none : encoder.CanIssue → False) : Strides encoder (.ok step) encoder :=
  .went .nothing .none rfl (by rw [plain]; exact .none)
    ⟨fun _ => id, fun _ => Or.inl (Nat.le_refl _), fun _ can => (none can).elim⟩ (by simp)

theorem Ended.resting (ended : encoder.Ended ledger) (alive : encoder.failed = false) :
    encoder.scheduler.endOfStream = true ∧ Runs takeNext encoder (.ok ()) encoder := by
  obtain ⟨stopped, draining⟩ : encoder.scheduler.endOfStream = true ∧ encoder.draining = true := by
    refine ended.stopped.resolve_left ?_
    simp [alive]
  refine ⟨stopped, (runs_get _).bind ?_⟩
  simp only [ended.waiting, draining, stopped, Bool.not_true, Bool.and_false, Bool.false_eq_true,
    if_false]
  exact runs_pure _ _

theorem Ended.advanceStep_ok (ended : encoder.Ended ledger) (alive : encoder.failed = false) :
    Ensures (advanceStep mode) encoder (Stepped ledger mode encoder) := by
  obtain ⟨stopped, taking⟩ := ended.resting alive
  have empty : encoder.window.isEmpty = true :=
    Window.isEmpty_iff.mpr ended.window
  refine Runs.bind_ensures taking (Runs.bind_ensures (runs_get _) ?_)
  rw [empty, stopped]
  exact (runs_pure _ _).ensures
    ⟨Or.inr ended, Keeps.refl _, .endOfStream stopped ended.window,
      strides_refl rfl fun can => can.not_empty ended.window⟩

theorem tryStep_ok (sound : encoder.Sound ledger) (alive : encoder.failed = false)
    (mode : BlockingMode) :
    Ensures (tryStep mode) encoder (Stepped ledger mode encoder) := by
  refine Runs.bind_ensures (runs_get _) ?_
  cases stalledEq : encoder.stalled mode with
  | true =>
      refine (runs_pure _ _).ensures
        ⟨sound, Keeps.refl _, .busy ?_ fun _ _ => stalledEq, strides_refl rfl fun can => ?_⟩
      · cases mode with
        | blocking => simp [stalled, waits] at stalledEq
        | nonBlocking => rfl
      · simp [stalled, can.room] at stalledEq
  | false =>
      rcases sound with running | ended
      · exact advanceStep_ok running
      · exact ended.advanceStep_ok alive

inductive Concluded (mode : BlockingMode) (before : Encoder B) :
    Except EncodeError Step → Encoder B → Prop where
  | moved {result : Except EncodeError Step} {after : Encoder B} (moved : Moved mode before result after)
      (survives : ∀ cause, result = .error cause → cause.isFatal = false) :
      Concluded mode before result after
  | fatal {cause : EncodeError} {after : Encoder B}
      (blame : cause = .sessionFailed ∨ cause.ofBackend = true) (fatal : cause.isFatal = true)
      (failed : after.failed = true) : Concluded mode before (.error cause) after

inductive Strode (before : Encoder B) : Except EncodeError Step → Encoder B → Prop where
  | dead (failed : before.failed = true) : Strode before (.error .sessionFailed) before
  | alive {result : Except EncodeError Step} {after : Encoder B} (alive : before.failed = false)
      (strides : Strides before result after)
      (survives : ∀ cause, result = .error cause → cause.isFatal = false) :
      Strode before result after
  | fatal {cause : EncodeError} {after : Encoder B} (alive : before.failed = false)
      (strides : Strides before (.error cause) after) (fatal : cause.isFatal = true) :
      Strode before (.error cause) { after with failed := true }

theorem Sound.fail (sound : encoder.Sound ledger) :
    ({ encoder with failed := true } : Encoder B).Sound ledger := by
  rcases sound with running | ended
  · exact Or.inl (running.of_core
      (running.core.congr rfl rfl rfl rfl rfl running.core.ended) rfl rfl)
  · exact Or.inr ⟨ended.window, ended.queue, ended.waiting, Or.inl rfl, ended.records⟩

theorem step_ok (sound : encoder.Sound ledger) (mode : BlockingMode) :
    Ensures (step mode) encoder fun result after => after.Sound ledger ∧ Keeps encoder after ∧
      Concluded mode encoder result after ∧ Strode encoder result after := by
  refine Runs.bind_ensures (runs_get _) ?_
  cases alive : encoder.failed with
  | true =>
      exact (runs_fail _ _).ensures
        ⟨sound, Keeps.refl _, .fatal (Or.inl rfl) rfl alive, .dead alive⟩
  | false =>
      obtain ⟨result, after, trying, stepped⟩ := tryStep_ok sound alive mode
      refine Runs.bind_ensures trying.attempt ?_
      cases result with
      | ok step =>
          exact (runs_pure _ _).ensures ⟨stepped.sound, stepped.keeps, .moved stepped.moved (by simp),
            .alive alive stepped.strides (by simp)⟩
      | error cause =>
          have blame : cause.ofBackend = true := by
            cases stepped.moved with
            | gained gains less =>
                cases gains with
                | failed blame => exact blame
          cases fatal : cause.isFatal with
          | true =>
              have ending : Runs (endSession cause) after (.ok ()) { after with failed := true } :=
                (runs_note rfl _).bind (runs_modify _ _)
              exact Runs.bind_ensures (runs_when_true fatal ending) ((runs_fail _ _).ensures
                ⟨stepped.sound.fail, stepped.keeps.trans ⟨rfl, rfl, rfl, rfl⟩,
                  .fatal (Or.inr blame) fatal rfl, .fatal alive stepped.strides fatal⟩)
          | false =>
              have survives : ∀ other, (.error cause : Except EncodeError Step) = .error other →
                  other.isFatal = false := by
                intro other same
                cases same
                exact fatal
              exact Runs.bind_ensures (runs_when_false (by simp [fatal]) _) ((runs_fail _ _).ensures
                ⟨stepped.sound, stepped.keeps, .moved stepped.moved survives,
                  .alive alive stepped.strides survives⟩)

end VideoSchedule.Encoder

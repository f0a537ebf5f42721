import VideoSchedule.OutputQueue
import VideoSchedule.Proofs.Execution

/-!
The output queue as a bounded sequence. A client adds promises and asks for results, and promises
become ready in whatever order; the record of the answers says which promises were let in and what
was handed out. Promises leave in the order in which they were let in, each with its own result.
-/

namespace VideoSchedule.OutputQueue

variable {π β : Type}

inductive Operation (π : Type) where
  | add (promise : π)
  | poll (request : BlockingMode)
  | complete (promise : π)

inductive Event (π β : Type) where
  | added (promise : π) (answer : Except EncodeError Unit)
  | polled (request : BlockingMode) (answer : Option (Except BackendError β))
  | completed (promise : π)

structure Desk (π : Type) where
  queue : OutputQueue π
  completed : List π := []

/-- A poll that waits for a promise is answered with what the promise comes to. -/
def serve [DecidableEq π] (sync : π → Except BackendError β) :
    Operation π → Desk π → Event π β × Desk π
  | .add promise, desk =>
      (.added promise (add promise desk.queue).result,
        { desk with queue := (add promise desk.queue).state })
  | .poll request, desk =>
      let answer := desk.queue.poll request desk.completed.contains sync
      (.polled request answer.1, { desk with queue := answer.2 })
  | .complete promise, desk =>
      (.completed promise, { desk with completed := promise :: desk.completed })

def serveAll [DecidableEq π] (sync : π → Except BackendError β) :
    List (Operation π) → Desk π → List (Event π β) × Desk π
  | [], desk => ([], desk)
  | operation :: rest, desk =>
      let first := serve sync operation desk
      let last := serveAll sync rest first.2
      (first.1 :: last.1, last.2)

/-! What a record of events says. -/

def Event.admitted? : Event π β → Option π
  | .added promise (.ok _) => some promise
  | _ => none

def admitted (events : List (Event π β)) : List π := events.filterMap Event.admitted?

def Event.handed? : Event π β → Option (Except BackendError β)
  | .polled _ answer => answer
  | _ => none

def handed (events : List (Event π β)) : List (Except BackendError β) :=
  events.filterMap Event.handed?

/-- There is nothing to hand out, or the oldest promise is not ready and nobody waits for it. -/
def Idle (request : BlockingMode) (ready : π → Bool) (queue : OutputQueue π) : Prop :=
  queue.promises = [] ∨
    queue.mode = .nonBlocking ∧ request = .nonBlocking ∧ queue.frontIsReady ready = false

variable {sync : π → Except BackendError β} {queue : OutputQueue π} {request : BlockingMode}
  {ready : π → Bool}

/-! One operation at a time. -/

theorem isFull_iff (bounded : queue.size ≤ queue.capacity) :
    queue.isFull = true ↔ queue.size = queue.capacity := by
  rw [isFull, decide_eq_true_iff]
  exact ⟨fun reached => Nat.le_antisymm bounded reached, fun same => Nat.le_of_eq same.symm⟩

theorem add_full (full : queue.isFull = true) (promise : π) :
    add promise queue =
      ⟨.error .invalidInternalState, queue, [.queueOverflow queue.size]⟩ := by
  simp [add, Action.bind_run, Action.bind, Action.get, Action.refuse, full]

theorem add_room (room : queue.isFull = false) (promise : π) :
    add promise queue = ⟨.ok (), { queue with promises := queue.promises ++ [promise] }, []⟩ := by
  simp [add, Action.bind_run, Action.bind, Action.get, Action.modify, room]

theorem poll_idle (idle : queue.Idle request ready) :
    queue.poll request ready sync = (none, queue) := by
  rcases idle with empty | ⟨mode, rfl, unready⟩
  · simp [poll, take?, empty]
  · cases waiting : queue.promises with
    | nil => simp [poll, take?, waiting]
    | cons front rest =>
        rw [frontIsReady, waiting] at unready
        simp [poll, take?, waiting, mode, unready]

theorem poll_busy (busy : ¬queue.Idle request ready) (sync : π → Except BackendError β) :
    ∃ front rest, queue.promises = front :: rest ∧
      queue.poll request ready sync = (some (sync front), { queue with promises := rest }) := by
  rw [Idle, not_or] at busy
  obtain ⟨occupied, served⟩ := busy
  cases waiting : queue.promises with
  | nil => exact absurd waiting occupied
  | cons front rest =>
      refine ⟨front, rest, rfl, ?_⟩
      rw [frontIsReady, waiting] at served
      have due : queue.mode = .blocking ∨ request = .blocking ∨ ready front = true := by
        cases mode : queue.mode <;> cases request <;> cases asked : ready front <;>
          simp_all
      simp [poll, take?, waiting, due]

theorem poll_none_iff : (queue.poll request ready sync).1 = none ↔ queue.Idle request ready := by
  by_cases idle : queue.Idle request ready
  · simp [poll_idle idle, idle]
  · obtain ⟨front, rest, _, served⟩ := poll_busy idle sync
    simp [served, idle]

theorem poll_unchanged_iff :
    (queue.poll request ready sync).2 = queue ↔ queue.Idle request ready := by
  by_cases idle : queue.Idle request ready
  · simp [poll_idle idle, idle]
  · obtain ⟨front, rest, waiting, served⟩ := poll_busy idle sync
    simp only [served, idle, iff_false]
    intro same
    have shorter := congrArg (fun queue => queue.promises.length) same
    simp [waiting] at shorter

/-! What every history keeps. -/

/-- What the record of a queue says of the queue itself. -/
structure Recounts (sync : π → Except BackendError β) (mode : BlockingMode) (capacity : Nat)
    (events : List (Event π β)) (queue : OutputQueue π) : Prop where
  mode_eq : queue.mode = mode
  capacity_eq : queue.capacity = capacity
  bounded : queue.size ≤ capacity
  /-- Of the promises that were let in the first ones have left, in that order and each with its own
  result, and the others are in the queue. -/
  ordered : ∃ left, admitted events = left ++ queue.promises ∧ handed events = left.map sync

theorem recounts_new (sync : π → Except BackendError β) (mode : BlockingMode) (capacity : Nat) :
    Recounts sync mode capacity [] { mode, capacity } where
  mode_eq := rfl
  capacity_eq := rfl
  bounded := Nat.zero_le _
  ordered := ⟨[], rfl, rfl⟩

namespace Recounts

variable {mode : BlockingMode} {capacity : Nat} {events : List (Event π β)} {next : OutputQueue π}

theorem concat (recounts : Recounts sync mode capacity events queue) (event : Event π β)
    (gone : List π)
    (moved : queue.promises ++ event.admitted?.toList = gone ++ next.promises)
    (results : event.handed?.toList = gone.map sync) (sameMode : next.mode = queue.mode)
    (sameCapacity : next.capacity = queue.capacity) (bounded : next.size ≤ capacity) :
    Recounts sync mode capacity (events ++ [event]) next := by
  obtain ⟨left, admittedEq, handedEq⟩ := recounts.ordered
  refine ⟨sameMode.trans recounts.mode_eq, sameCapacity.trans recounts.capacity_eq, bounded,
    left ++ gone, ?_, ?_⟩
  · calc admitted (events ++ [event])
      _ = admitted events ++ event.admitted?.toList := by
          simp only [admitted, List.filterMap_append, List.filterMap_cons, List.filterMap_nil]
          cases event.admitted? <;> rfl
      _ = left ++ gone ++ next.promises := by
          rw [admittedEq, List.append_assoc, moved, List.append_assoc]
  · calc handed (events ++ [event])
      _ = handed events ++ event.handed?.toList := by
          simp only [handed, List.filterMap_append, List.filterMap_cons, List.filterMap_nil]
          cases event.handed? <;> rfl
      _ = (left ++ gone).map sync := by rw [handedEq, results, List.map_append]

theorem add (recounts : Recounts sync mode capacity events queue) (promise : π) :
    Recounts sync mode capacity
      (events ++ [.added promise (OutputQueue.add promise queue).result])
      (OutputQueue.add promise queue).state := by
  cases room : queue.isFull with
  | true =>
      rw [add_full room]
      exact recounts.concat _ [] (List.append_nil _) rfl rfl rfl recounts.bounded
  | false =>
      rw [add_room room]
      refine recounts.concat _ [] rfl rfl rfl rfl ?_
      rw [isFull, decide_eq_false_iff_not, Nat.not_le, recounts.capacity_eq] at room
      rw [size, List.length_append]
      exact room

theorem poll (recounts : Recounts sync mode capacity events queue) (request : BlockingMode)
    (ready : π → Bool) :
    Recounts sync mode capacity
      (events ++ [.polled request (queue.poll request ready sync).1])
      (queue.poll request ready sync).2 := by
  by_cases idle : queue.Idle request ready
  · rw [poll_idle idle]
    exact recounts.concat _ [] (List.append_nil _) rfl rfl rfl recounts.bounded
  · obtain ⟨front, rest, waiting, served⟩ := poll_busy idle sync
    rw [served]
    refine recounts.concat _ [front] ?_ rfl rfl rfl ?_
    · rw [waiting]
      exact List.append_nil _
    · have bounded := recounts.bounded
      rw [size, waiting, List.length_cons] at bounded
      exact Nat.le_of_succ_le bounded

theorem complete (recounts : Recounts sync mode capacity events queue) (promise : π) :
    Recounts sync mode capacity (events ++ [.completed promise]) queue :=
  recounts.concat _ [] (List.append_nil _) rfl rfl rfl recounts.bounded

theorem serve [DecidableEq π] {desk : Desk π}
    (recounts : Recounts sync mode capacity events desk.queue) (operation : Operation π) :
    Recounts sync mode capacity (events ++ [(serve sync operation desk).1])
      (serve sync operation desk).2.queue := by
  cases operation with
  | add promise => exact recounts.add promise
  | poll request => exact recounts.poll request _
  | complete promise => exact recounts.complete promise

theorem serveAll [DecidableEq π] (operations : List (Operation π)) {desk : Desk π}
    (recounts : Recounts sync mode capacity events desk.queue) :
    Recounts sync mode capacity (events ++ (serveAll sync operations desk).1)
      (serveAll sync operations desk).2.queue := by
  induction operations generalizing desk events with
  | nil => simpa [OutputQueue.serveAll] using recounts
  | cons operation rest ih =>
      have later := ih (recounts.serve operation)
      rwa [List.append_assoc] at later

end Recounts

/-- A queue that was asked in any way whatever, and what it answers next. -/
structure Orderly (sync : π → Except BackendError β) (mode : BlockingMode) (capacity : Nat)
    (events : List (Event π β)) (queue : OutputQueue π) : Prop
    extends Recounts sync mode capacity events queue where
  full_iff : queue.isFull = true ↔ queue.size = capacity
  /-- A full queue takes nothing in and stays as it is. -/
  refuses : queue.size = capacity → ∀ promise, add promise queue =
    ⟨.error .invalidInternalState, queue, [.queueOverflow capacity]⟩
  admits : queue.size ≠ capacity → ∀ promise, add promise queue =
    ⟨.ok (), { queue with promises := queue.promises ++ [promise] }, []⟩
  /-- Nothing is handed out if and only if nothing changes, whichever promises are ready. -/
  none_iff : ∀ request ready, (queue.poll request ready sync).1 = none ↔ queue.Idle request ready
  unchanged_iff : ∀ request ready,
    (queue.poll request ready sync).2 = queue ↔ queue.Idle request ready
  /-- The oldest promise leaves, with its value or its error, and the others keep their places. -/
  serves : ∀ request ready, ¬queue.Idle request ready → ∃ front rest,
    queue.promises = front :: rest ∧
      queue.poll request ready sync = (some (sync front), { queue with promises := rest })

theorem serveAll_orderly [DecidableEq π] (sync : π → Except BackendError β) (mode : BlockingMode)
    (capacity : Nat) (operations : List (Operation π)) :
    Orderly sync mode capacity
      (serveAll sync operations { queue := { mode, capacity } }).1
      (serveAll sync operations { queue := { mode, capacity } }).2.queue := by
  have opened : Recounts sync mode capacity []
      ({ queue := { mode, capacity } } : Desk π).queue := recounts_new sync mode capacity
  have recounts := opened.serveAll operations
  rw [List.nil_append] at recounts
  generalize (serveAll sync operations { queue := { mode, capacity } }).1 = events at recounts
  generalize (serveAll sync operations { queue := { mode, capacity } }).2.queue = queue at recounts
  have bounded : queue.size ≤ queue.capacity := by
    rw [recounts.capacity_eq]
    exact recounts.bounded
  have fullIff : queue.isFull = true ↔ queue.size = capacity := by
    rw [isFull_iff bounded, recounts.capacity_eq]
  constructor
  case toRecounts => exact recounts
  case full_iff => exact fullIff
  case refuses =>
    intro full promise
    rw [add_full (fullIff.mpr full), full]
  case admits =>
    intro room promise
    exact add_room (Bool.eq_false_iff.mpr fun full => room (fullIff.mp full)) promise
  case none_iff => exact fun request ready => poll_none_iff
  case unchanged_iff => exact fun request ready => poll_unchanged_iff
  case serves => exact fun request ready busy => poll_busy busy sync

/-- Two promises become ready against their order and leave in it; the second one fails, and the
third found the queue full. -/
example :
    (serveAll (fun promise : Nat => if promise = 2 then .error .unsupported else .ok promise)
        [.add 1, .add 2, .add 3, .complete 2, .poll .nonBlocking, .complete 1, .poll .nonBlocking,
          .poll .nonBlocking, .poll .blocking]
        { queue := { mode := .nonBlocking, capacity := 2 } }).1 =
      [.added 1 (.ok ()), .added 2 (.ok ()), .added 3 (.error .invalidInternalState), .completed 2,
        .polled .nonBlocking none, .completed 1, .polled .nonBlocking (some (.ok 1)),
        .polled .nonBlocking (some (.error .unsupported)), .polled .blocking none] := by
  rfl

end VideoSchedule.OutputQueue

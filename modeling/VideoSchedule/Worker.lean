import VideoSchedule.Failure

/-!
A worker runs jobs one at a time, in the order of their submission, and leaves each result in the
slot of its job. A gated job waits until its gate is opened. The worker exits once it was told to
stop and nothing is queued. Clients and the worker take turns: `step?` is one move of the worker,
everything else is a client's.
-/

namespace VideoSchedule

structure Job (α : Type) where
  result : Except BackendError α
  gated : Bool := false

structure Worker (α : Type) where
  queue : List (Nat × Job α) := []
  active : Option (Nat × Job α) := none
  submitted : Nat := 0
  opened : List Nat := []
  /-- Results with the numbers of their jobs, latest first. -/
  slots : List (Nat × Except BackendError α) := []
  running : Bool := true
  exited : Bool := false

namespace Worker

variable {α : Type}

def submit (job : Job α) (worker : Worker α) : Nat × Worker α :=
  (worker.submitted,
    { worker with
      queue := worker.queue ++ [(worker.submitted, job)]
      submitted := worker.submitted + 1 })

def release (number : Nat) (worker : Worker α) : Worker α :=
  { worker with opened := number :: worker.opened }

def stop (worker : Worker α) : Worker α := { worker with running := false }

def passes (worker : Worker α) (number : Nat) (job : Job α) : Bool :=
  !job.gated || worker.opened.contains number

/-- One move of the worker: finish the active job, start the next one, or exit. -/
def step? (worker : Worker α) : Option (Worker α) :=
  match worker.active, worker.queue with
  | some (number, job), _ =>
    if worker.passes number job then
      some { worker with
        active := none
        slots := (number, job.result) :: worker.slots }
    else none
  | none, next :: rest => some { worker with active := some next, queue := rest }
  | none, [] =>
    if worker.running || worker.exited then none else some { worker with exited := true }

def moves : Nat → Worker α → Worker α
  | 0, worker => worker
  | count + 1, worker =>
    match worker.step? with
    | some next => moves count next
    | none => worker

def settle (worker : Worker α) : Worker α := worker.moves (2 * worker.queue.length + 2)

def ran (worker : Worker α) : List Nat := (worker.slots.map Prod.fst).reverse

def result? (worker : Worker α) (number : Nat) : Option (Except BackendError α) :=
  worker.slots.lookup number

def isReady (worker : Worker α) (number : Nat) : Bool := (worker.result? number).isSome

/-- Waits for a job; there is no result if the job waits for a gate that nobody opened. -/
def sync? (number : Nat) (worker : Worker α) : Option (Except BackendError α) × Worker α :=
  (worker.settle.result? number, worker.settle)

def close (worker : Worker α) : Worker α :=
  ((List.range worker.submitted).foldl (fun worker number => worker.release number) worker)
    |>.stop |>.settle

end Worker

end VideoSchedule

import VideoSchedule.Proofs.Worker

/-!
A worker among its clients, who submit jobs, open gates, wait for results and stop the worker while
its thread takes jobs, runs them and writes their results down, in any order of all these steps. The
jobs run in the order of their submission, and a worker that was stopped ends after the last of them.
-/

namespace VideoSchedule.Worker

variable {α : Type} {worker next : Worker α} {jobs : List (Nat × Job α)} {number : Nat} {job : Job α}

def outcome (entry : Nat × Job α) : Nat × Except BackendError α := (entry.1, entry.2.result)

/-! The thread by itself. -/

/-- What a worker shows of the jobs that were submitted to it, the first one first. -/
structure Books (jobs : List (Nat × Job α)) (worker : Worker α) : Prop where
  numbered : jobs.map Prod.fst = List.range worker.submitted
  /-- The first jobs have results, each its own, and the others are pending. -/
  split : ∃ past, jobs = past ++ worker.pending ∧ worker.slots.reverse = past.map outcome
  ended : worker.exited = true → worker.running = false ∧ worker.pending = []

theorem books_new : Books [] ({} : Worker α) where
  numbered := rfl
  split := ⟨[], rfl, rfl⟩
  ended impossible := by cases impossible

theorem step?_cases (moved : worker.step? = some next) :
    (∃ number job, worker.active = some (number, job) ∧ worker.passes number job = true ∧
      next = { worker with active := none, slots := (number, job.result) :: worker.slots }) ∨
    (∃ first rest, worker.active = none ∧ worker.queue = first :: rest ∧
      next = { worker with active := some first, queue := rest }) ∨
    (worker.active = none ∧ worker.queue = [] ∧ worker.running = false ∧ worker.exited = false ∧
      next = { worker with exited := true }) := by
  cases active : worker.active with
  | some entry =>
      obtain ⟨number, job⟩ := entry
      simp only [step?, active] at moved
      split at moved
      · exact .inl ⟨number, job, rfl, ‹_›, (Option.some.inj moved).symm⟩
      · cases moved
  | none =>
      cases queue : worker.queue with
      | cons first rest =>
          simp only [step?, active, queue] at moved
          exact .inr (.inl ⟨first, rest, rfl, rfl, (Option.some.inj moved).symm⟩)
      | nil =>
          simp only [step?, active, queue] at moved
          split at moved
          · cases moved
          · rename_i alive
            rw [Bool.or_eq_true, not_or, Bool.not_eq_true, Bool.not_eq_true] at alive
            exact .inr (.inr ⟨rfl, rfl, alive.1, alive.2, (Option.some.inj moved).symm⟩)

namespace Books

theorem submit (books : Books jobs worker) (job : Job α) (running : worker.running = true) :
    Books (jobs ++ [((worker.submit job).1, job)]) (worker.submit job).2 := by
  obtain ⟨past, jobsEq, slotsEq⟩ := books.split
  constructor
  · simp [Worker.submit, books.numbered, List.range_succ]
  · exact ⟨past, by simp [Worker.submit, jobsEq, pending], slotsEq⟩
  · intro exited
    cases (books.ended exited).1.symm.trans running

theorem release (books : Books jobs worker) (number : Nat) :
    Books jobs (worker.release number) :=
  ⟨books.numbered, books.split, books.ended⟩

theorem stop (books : Books jobs worker) : Books jobs worker.stop :=
  ⟨books.numbered, books.split, fun exited => ⟨rfl, (books.ended exited).2⟩⟩

theorem step (books : Books jobs worker) (moved : worker.step? = some next) : Books jobs next := by
  obtain ⟨past, jobsEq, slotsEq⟩ := books.split
  rcases step?_cases moved with ⟨number, job, active, _, rfl⟩ | ⟨first, rest, active, queue, rfl⟩ |
    ⟨active, queue, stopped, _, rfl⟩
  · refine ⟨books.numbered, ⟨past ++ [(number, job)], ?_, ?_⟩, fun exited => ?_⟩
    · simp [jobsEq, pending, active]
    · simp [slotsEq, outcome]
    · have idle := (books.ended exited).2
      simp [pending, active] at idle
  · refine ⟨books.numbered, ⟨past, ?_, slotsEq⟩, fun exited => ?_⟩
    · simp [jobsEq, pending, active, queue]
    · have idle := (books.ended exited).2
      simp [pending, active, queue] at idle
  · exact ⟨books.numbered, ⟨past, jobsEq, slotsEq⟩,
      fun _ => ⟨stopped, by simp [pending, active, queue]⟩⟩

theorem moves (books : Books jobs worker) (count : Nat) : Books jobs (worker.moves count) := by
  induction count generalizing worker with
  | zero => exact books
  | succ count ih =>
      rw [Worker.moves]
      cases moved : worker.step? with
      | none => exact books
      | some next => exact ih (books.step moved)

/-! What the books say. -/

theorem ran_append (books : Books jobs worker) :
    worker.ran ++ worker.pending.map Prod.fst = jobs.map Prod.fst := by
  obtain ⟨past, jobsEq, slotsEq⟩ := books.split
  rw [jobsEq, List.map_append, ran, ← List.map_reverse, slotsEq, List.map_map]
  rfl

theorem length_eq (books : Books jobs worker) :
    worker.slots.length + worker.pending.length = jobs.length := by
  simpa [ran] using congrArg List.length books.ran_append

theorem ran_eq (books : Books jobs worker) : worker.ran = List.range worker.slots.length := by
  have shown := books.ran_append
  have length := books.length_eq
  rw [books.numbered] at shown
  have front := congrArg (List.take worker.slots.length) shown
  rwa [List.take_left' (by simp [ran]), List.take_range, Nat.min_eq_left] at front
  have numbers := congrArg List.length books.numbered
  rw [List.length_map, List.length_range] at numbers
  omega

theorem distinct (books : Books jobs worker) : (jobs.map Prod.fst).Nodup := by
  rw [books.numbered]
  exact List.nodup_range

theorem slots_nodup (books : Books jobs worker) : (worker.slots.map Prod.fst).Nodup := by
  rw [← List.nodup_reverse]
  have distinct := books.distinct
  rw [← books.ran_append] at distinct
  exact (List.nodup_append.mp distinct).1

theorem own (books : Books jobs worker) {result : Except BackendError α}
    (written : (number, result) ∈ worker.slots) :
    ∃ job, (number, job) ∈ jobs ∧ result = job.result := by
  obtain ⟨past, jobsEq, slotsEq⟩ := books.split
  rw [← List.mem_reverse, slotsEq] at written
  obtain ⟨⟨_, job⟩, member, same⟩ := List.mem_map.mp written
  cases same
  exact ⟨job, jobsEq ▸ List.mem_append_left _ member, rfl⟩

theorem result? (books : Books jobs worker) {result : Except BackendError α} :
    worker.result? number = some result ↔ (number, result) ∈ worker.slots := by
  refine ⟨fun found => ?_, lookup_of_mem books.slots_nodup⟩
  obtain ⟨before, after, split, _⟩ := List.lookup_eq_some_iff.mp found
  simp [split]

theorem isReady_iff (books : Books jobs worker) :
    worker.isReady number = true ↔ number < worker.slots.length := by
  rw [isReady, Worker.result?, List.lookup_isSome_iff, ← List.mem_range, ← books.ran_eq, ran,
    List.mem_reverse, List.mem_map]
  constructor
  · rintro ⟨entry, member, same⟩
    exact ⟨entry, member, (beq_iff_eq.mp same).symm⟩
  · rintro ⟨entry, member, rfl⟩
    exact ⟨entry, member, beq_self_eq_true _⟩

theorem finished (books : Books jobs worker) (idle : worker.pending = []) :
    worker.ran = jobs.map Prod.fst ∧
      ∀ number job, (number, job) ∈ jobs → worker.result? number = some job.result := by
  have shown := books.ran_append
  obtain ⟨past, jobsEq, slotsEq⟩ := books.split
  rw [idle, List.append_nil] at jobsEq
  rw [idle, List.map_nil, List.append_nil] at shown
  refine ⟨shown, fun number job member => books.result?.mpr ?_⟩
  rw [← List.mem_reverse, slotsEq, ← jobsEq]
  exact List.mem_map.mpr ⟨_, member, rfl⟩

end Books

/-! The thread left to itself runs the jobs whose gates are open up to the first closed one. -/

theorem mem_slots_moves {entry : Nat × Except BackendError α} (written : entry ∈ worker.slots)
    (count : Nat) : entry ∈ (worker.moves count).slots := by
  induction count generalizing worker with
  | zero => exact written
  | succ count ih =>
      rw [moves]
      cases moved : worker.step? with
      | none => exact written
      | some next =>
          refine ih ?_
          rcases step?_cases moved with ⟨_, _, _, _, rfl⟩ | ⟨_, _, _, _, rfl⟩ | ⟨_, _, _, _, rfl⟩
          · exact List.mem_cons_of_mem _ written
          · exact written
          · exact written

theorem moves_succ (moved : worker.step? = some next) (count : Nat) :
    worker.moves (count + 1) = next.moves count := by
  rw [moves, moved]

theorem step?_active {number : Nat} {job : Job α} (active : worker.active = some (number, job))
    (passes : worker.passes number job = true) : worker.step? = some { worker with
      active := none
      slots := (number, job.result) :: worker.slots } := by
  simp [step?, active, passes]

theorem step?_idle {first : Nat × Job α} {rest : List (Nat × Job α)}
    (idle : worker.active = none) (queue : worker.queue = first :: rest) :
    worker.step? = some { worker with active := some first, queue := rest } := by
  simp [step?, idle, queue]

def past (front back : List (Nat × Job α)) (worker : Worker α) : Worker α :=
  { worker with active := none, queue := back, slots := (front.map outcome).reverse ++ worker.slots }

theorem moves_past {front back : List (Nat × Job α)} (idle : worker.active = none)
    (queue : worker.queue = front ++ back)
    (passes : ∀ entry ∈ front, worker.passes entry.1 entry.2 = true) (count : Nat) :
    worker.moves (count + 2 * front.length) = (worker.past front back).moves count := by
  induction front generalizing worker with
  | nil =>
      rw [List.nil_append] at queue
      subst queue
      rw [past, ← idle]
      rfl
  | cons entry rest ih =>
      obtain ⟨number, job⟩ := entry
      have later : count + 2 * ((number, job) :: rest).length = count + 2 * rest.length + 1 + 1 := by
        rw [List.length_cons]
        omega
      calc worker.moves (count + 2 * ((number, job) :: rest).length)
        _ = ({ worker with active := some (number, job), queue := rest ++ back } :
              Worker α).moves (count + 2 * rest.length + 1) := by
            rw [later]
            exact moves_succ (step?_idle idle queue) _
        _ = ({ worker with
              active := none
              queue := rest ++ back
              slots := (number, job.result) :: worker.slots } :
                Worker α).moves (count + 2 * rest.length) :=
            moves_succ (step?_active rfl (by exact passes _ (List.mem_cons_self ..))) _
        _ = (worker.past ((number, job) :: rest) back).moves count := by
            refine Eq.trans (ih (by rfl) (by rfl) fun entry member =>
              passes entry (List.mem_cons_of_mem _ member)) ?_
            simp [past, outcome]

theorem settle_past {front back : List (Nat × Job α)} (pending : worker.pending = front ++ back)
    (started : worker.active = none ∨ front ≠ [])
    (passes : ∀ entry ∈ front, worker.passes entry.1 entry.2 = true) :
    ∃ count, worker.settle = (worker.past front back).moves (count + 1) := by
  cases active : worker.active with
  | none =>
      have queue : worker.queue = front ++ back := by
        simpa [Worker.pending, active] using pending
      refine ⟨2 * back.length + 1, ?_⟩
      rw [← moves_past active queue passes, settle, queue, List.length_append]
      congr 1
      omega
  | some entry =>
      obtain ⟨number, job⟩ := entry
      cases front with
      | nil => simp [active] at started
      | cons first rest =>
          have split : (number, job) = first ∧ worker.queue = rest ++ back := by
            simpa [Worker.pending, active] using pending
          obtain ⟨rfl, queue⟩ := split
          refine ⟨2 * back.length, ?_⟩
          have cost : 2 * worker.queue.length + 2 =
              2 * back.length + 1 + 2 * rest.length + 1 := by
            rw [queue, List.length_append]
            omega
          calc worker.settle
            _ = ({ worker with
                  active := none
                  slots := (number, job.result) :: worker.slots } :
                    Worker α).moves (2 * back.length + 1 + 2 * rest.length) := by
                rw [settle, cost]
                exact moves_succ (step?_active active (passes _ (List.mem_cons_self ..))) _
            _ = (past rest back { worker with
                  active := none
                  slots := (number, job.result) :: worker.slots }).moves (2 * back.length + 1) :=
                moves_past rfl (by exact queue)
                  (by exact fun entry member => passes entry (List.mem_cons_of_mem _ member)) _
            _ = (worker.past ((number, job) :: rest) back).moves (2 * back.length + 1) := by
                simp [past, outcome]

theorem exited_moves (stays : worker.exited = true) (count : Nat) :
    (worker.moves count).exited = true := by
  induction count generalizing worker with
  | zero => exact stays
  | succ count ih =>
      rw [moves]
      cases moved : worker.step? with
      | none => exact stays
      | some next =>
          refine ih ?_
          rcases step?_cases moved with ⟨_, _, _, _, rfl⟩ | ⟨_, _, _, _, rfl⟩ | ⟨_, _, _, _, rfl⟩
          · exact stays
          · exact stays
          · rfl

theorem exits (idle : worker.pending = []) (stopped : worker.running = false) (count : Nat) :
    (worker.moves (count + 1)).exited = true := by
  obtain ⟨active, queue⟩ := List.append_eq_nil_iff.mp idle
  cases exited : worker.exited with
  | true => exact exited_moves exited _
  | false =>
      have moved : worker.step? = some { worker with exited := true } := by
        rw [Option.toList_eq_nil_iff] at active
        simp [step?, active, queue, stopped, exited]
      rw [moves_succ moved]
      exact exited_moves rfl count

theorem settle_exits (passes : ∀ entry ∈ worker.pending, worker.passes entry.1 entry.2 = true)
    (stopped : worker.running = false) : worker.settle.exited = true := by
  have started : worker.active = none ∨ worker.pending ≠ [] := by
    cases active : worker.active <;> simp [pending, active]
  obtain ⟨count, settled⟩ := settle_past (List.append_nil _).symm started passes
  rw [settled]
  exact exits rfl (by exact stopped) count

theorem foldl_release (numbers : List Nat) (worker : Worker α) :
    numbers.foldl (fun worker number => worker.release number) worker =
      { worker with opened := numbers.reverse ++ worker.opened } := by
  induction numbers generalizing worker with
  | nil => rfl
  | cons number rest ih =>
      rw [List.foldl_cons, ih]
      simp [release]

namespace Books

theorem up_to (books : Books jobs worker) (waiting : (number, job) ∈ worker.pending) :
    ∃ front back, worker.pending = (front ++ [(number, job)]) ++ back ∧
      ∀ entry ∈ front ++ [(number, job)], entry ∈ jobs ∧ entry.1 ≤ number := by
  obtain ⟨past, jobsEq, _⟩ := books.split
  obtain ⟨front, back, split⟩ := List.append_of_mem waiting
  have upTo : worker.pending = (front ++ [(number, job)]) ++ back := by simp [split]
  have order : (jobs.map Prod.fst).Pairwise (· < ·) := by
    rw [books.numbered]
    exact List.pairwise_lt_range
  refine ⟨front, back, upTo, fun entry member => ⟨?_, ?_⟩⟩
  · rw [jobsEq, upTo]
    exact List.mem_append_right _ (List.mem_append_left _ member)
  · rcases List.mem_append.mp member with before | last
    · rw [jobsEq, split, List.pairwise_map, ← List.append_assoc, List.pairwise_append] at order
      exact Nat.le_of_lt (order.2.2 entry (List.mem_append_right _ before) _
        (List.mem_cons_self ..))
    · exact Nat.le_of_eq (congrArg Prod.fst (List.mem_singleton.mp last))

theorem sync? (books : Books jobs worker) (member : (number, job) ∈ jobs)
    (passes : ∀ entry ∈ jobs, entry.1 ≤ number → worker.passes entry.1 entry.2 = true) :
    (worker.sync? number).1 = some job.result := by
  obtain ⟨past, jobsEq, slotsEq⟩ := books.split
  refine ((books.moves _).result?).mpr ?_
  rw [jobsEq] at member
  rcases List.mem_append.mp member with ran | waiting
  · have written : (number, job.result) ∈ worker.slots := by
      rw [← List.mem_reverse, slotsEq]
      exact List.mem_map.mpr ⟨_, ran, rfl⟩
    exact mem_slots_moves written _
  · obtain ⟨front, back, upTo, early⟩ := books.up_to waiting
    obtain ⟨count, settled⟩ := settle_past upTo (.inr (by simp)) fun entry member =>
      passes entry (early entry member).1 (early entry member).2
    have written : (number, job.result) ∈ worker.settle.slots := by
      rw [settled]
      refine mem_slots_moves ?_ _
      simp [Worker.past, outcome]
    exact written

theorem close (books : Books jobs worker) :
    Books jobs worker.close ∧ worker.close.exited = true := by
  have released : Books jobs { worker with
      opened := (List.range worker.submitted).reverse ++ worker.opened } :=
    ⟨books.numbered, books.split, books.ended⟩
  rw [Worker.close, foldl_release]
  refine ⟨released.stop.moves _, settle_exits (fun entry member => ?_) rfl⟩
  obtain ⟨past, jobsEq, _⟩ := released.stop.split
  have numbered : entry.1 ∈ List.range worker.submitted := by
    rw [← books.numbered, jobsEq]
    exact List.mem_map_of_mem (List.mem_append_right _ member)
  have given := List.mem_range.mp numbered
  simp [Worker.passes, Worker.stop, given]

end Books

/-! The thread among the clients. -/

/-- The thread takes a job, runs it, and then writes its result down. `executed` lists the jobs that
were run, the first one first; `carrying` says that the active one is among them. -/
structure Shop (α : Type) where
  worker : Worker α := {}
  executed : List Nat := []
  carrying : Bool := false

inductive Event (α : Type) where
  | submitted (number : Nat) (job : Job α)
  | released (number : Nat)
  | synced (number : Nat) (answer : Except BackendError α)
  /-- The promise of a job was given up without waiting for it. -/
  | abandoned (number : Nat)
  | stopped
  | executed (number : Nat)
  | advanced

def Event.own : Event α → Bool
  | .executed _ | .advanced => true
  | _ => false

/-- One step of a client or of the thread. A worker is stopped by its owner, who submits nothing
after that; waiting for a job ends once the result is there. -/
inductive Move : Shop α → Event α → Shop α → Prop where
  | submit {shop : Shop α} (job : Job α) (running : shop.worker.running = true) :
      Move shop (.submitted (shop.worker.submit job).1 job)
        { shop with worker := (shop.worker.submit job).2 }
  | release {shop : Shop α} (number : Nat) :
      Move shop (.released number) { shop with worker := shop.worker.release number }
  | sync {shop : Shop α} {number : Nat} {answer : Except BackendError α}
      (written : shop.worker.result? number = some answer) : Move shop (.synced number answer) shop
  | abandon {shop : Shop α} (number : Nat) : Move shop (.abandoned number) shop
  | stop {shop : Shop α} : Move shop .stopped { shop with worker := shop.worker.stop }
  | execute {shop : Shop α} {number : Nat} {job : Job α}
      (active : shop.worker.active = some (number, job)) (waiting : shop.carrying = false)
      (passes : shop.worker.passes number job = true) :
      Move shop (.executed number)
        { shop with executed := shop.executed ++ [number], carrying := true }
  | advance {shop : Shop α} {next : Worker α} (moved : shop.worker.step? = some next)
      (done : shop.worker.active.isSome = shop.carrying) :
      Move shop .advanced { shop with worker := next, carrying := false }

/-- All that may happen to a new worker, with the events in their order. -/
inductive Run : List (Event α) → Shop α → Prop where
  | start : Run [] {}
  | move {events : List (Event α)} {shop after : Shop α} {event : Event α} (run : Run events shop)
      (move : Move shop event after) : Run (events ++ [event]) after

def Event.submission? : Event α → Option (Nat × Job α)
  | .submitted number job => some (number, job)
  | _ => none

def submissions (events : List (Event α)) : List (Nat × Job α) :=
  events.filterMap Event.submission?

variable {events : List (Event α)} {event : Event α} {shop after : Shop α}

structure Kept (events : List (Event α)) (shop : Shop α) : Prop where
  books : Books (submissions events) shop.worker
  carried : shop.carrying = true → shop.worker.active.isSome = true
  /-- Besides the jobs with results only the active one may have run. -/
  executed : shop.executed = shop.worker.ran ++
    if shop.carrying then shop.worker.active.toList.map Prod.fst else []
  synced : ∀ number answer, .synced number answer ∈ events → (number, answer) ∈ shop.worker.slots
  /-- The thread makes three steps for each job, and one to exit. -/
  counted : events.countP Event.own = 3 * shop.worker.slots.length +
    shop.worker.active.toList.length + shop.carrying.toNat + shop.worker.exited.toNat

theorem kept_start : Kept ([] : List (Event α)) {} where
  books := books_new
  carried impossible := by cases impossible
  executed := rfl
  synced := by simp
  counted := rfl

theorem submissions_concat (events : List (Event α)) (event : Event α) :
    submissions (events ++ [event]) = submissions events ++ event.submission?.toList := by
  simp only [submissions, List.filterMap_append, List.filterMap_cons, List.filterMap_nil]
  cases event.submission? <;> rfl

theorem Kept.client (kept : Kept events shop) (foreign : event.own = false)
    (books : Books (submissions (events ++ [event])) worker)
    (active : worker.active = shop.worker.active) (slots : worker.slots = shop.worker.slots)
    (exited : worker.exited = shop.worker.exited)
    (answered : ∀ number answer, event = .synced number answer →
      (number, answer) ∈ shop.worker.slots) :
    Kept (events ++ [event]) { shop with worker } where
  books := books
  carried carrying := by
    rw [active]
    exact kept.carried carrying
  executed := by
    rw [ran, slots, active]
    exact kept.executed
  synced number answer member := by
    rw [slots]
    rcases List.mem_append.mp member with before | last
    · exact kept.synced number answer before
    · exact answered number answer (List.mem_singleton.mp last).symm
  counted := by
    rw [List.countP_append, kept.counted, slots, active, exited]
    simp [foreign]

theorem Kept.execute (kept : Kept events shop) (active : shop.worker.active = some (number, job))
    (waiting : shop.carrying = false) :
    Kept (events ++ [.executed number])
      { shop with executed := shop.executed ++ [number], carrying := true } where
  books := by
    rw [submissions_concat]
    simpa [Event.submission?] using kept.books
  carried _ := by simp [active]
  executed := by simp [kept.executed, waiting, active]
  synced number answer member := kept.synced number answer (by simpa using member)
  counted := by
    rw [List.countP_append, kept.counted]
    simp [Event.own, waiting]
    omega

theorem Kept.advance (kept : Kept events shop) (moved : shop.worker.step? = some next)
    (done : shop.worker.active.isSome = shop.carrying) :
    Kept (events ++ [.advanced]) { shop with worker := next, carrying := false } := by
  have books := kept.books.step moved
  have same : submissions (events ++ [.advanced]) = submissions events := by
    simp [submissions_concat, Event.submission?]
  have member : ∀ {number : Nat} {answer : Except BackendError α},
      .synced number answer ∈ events ++ [.advanced] → .synced number answer ∈ events := by simp
  have executed := kept.executed
  have counted := kept.counted
  rw [← done] at executed counted
  have counts : List.countP Event.own (events ++ [.advanced]) =
        events.countP Event.own + 1 := by
    simp [Event.own]
  rcases step?_cases moved with ⟨number, job, active, _, rfl⟩ | ⟨first, rest, active, _, rfl⟩ |
    ⟨active, _, _, staying, rfl⟩
  · refine ⟨same ▸ books, by simp, by simp [executed, ran, active], ?_, ?_⟩
    · exact fun number answer given =>
        List.mem_cons_of_mem _ (kept.synced number answer (member given))
    · rw [counts, counted]
      simp [active]
      omega
  · refine ⟨same ▸ books, by simp, by simp [executed, ran, active], ?_, ?_⟩
    · exact fun number answer given => kept.synced number answer (member given)
    · rw [counts, counted]
      simp [active]
      omega
  · refine ⟨same ▸ books, by simp, by simp [executed, ran, active], ?_, ?_⟩
    · exact fun number answer given => kept.synced number answer (member given)
    · rw [counts, counted]
      simp [active, staying]

theorem Kept.move (kept : Kept events shop) (move : Move shop event after) :
    Kept (events ++ [event]) after := by
  have books := kept.books
  cases move with
  | submit job running =>
      refine kept.client rfl ?_ rfl rfl rfl (by simp)
      rw [submissions_concat]
      exact books.submit job running
  | release number =>
      refine kept.client rfl ?_ rfl rfl rfl (by simp)
      rw [submissions_concat]
      simpa [Event.submission?] using books.release number
  | sync written =>
      refine kept.client rfl ?_ rfl rfl rfl ?_
      · rw [submissions_concat]
        simpa [Event.submission?] using books
      · rintro number answer same
        cases same
        exact books.result?.mp written
  | abandon number =>
      refine kept.client rfl ?_ rfl rfl rfl (by simp)
      rw [submissions_concat]
      simpa [Event.submission?] using books
  | stop =>
      refine kept.client rfl ?_ rfl rfl rfl (by simp)
      rw [submissions_concat]
      simpa [Event.submission?] using books.stop
  | execute active waiting _ => exact kept.execute active waiting
  | advance moved done => exact kept.advance moved done

theorem Run.kept (run : Run events shop) : Kept events shop := by
  induction run with
  | start => exact kept_start
  | move _ move ih => exact ih.move move

/-! What the steps amount to. -/

namespace Kept

theorem executed_first (kept : Kept events shop) :
    shop.executed <+: (submissions events).map Prod.fst := by
  rw [kept.executed, ← kept.books.ran_append, List.prefix_append_right_inj, pending,
    List.map_append]
  split
  · exact List.prefix_append _ _
  · exact List.nil_prefix

theorem ran_subset (kept : Kept events shop) (ran : number ∈ shop.worker.ran) :
    number ∈ shop.executed := by
  rw [kept.executed]
  exact List.mem_append_left _ ran

theorem finished (kept : Kept events shop) (exited : shop.worker.exited = true) :
    shop.executed = (submissions events).map Prod.fst := by
  have idle := (kept.books.ended exited).2
  have active : shop.worker.active = none := by
    rw [pending, List.append_eq_nil_iff, Option.toList_eq_nil_iff] at idle
    exact idle.1
  rw [kept.executed, (kept.books.finished idle).1, active]
  simp

theorem progress (kept : Kept events shop)
    (passes : ∀ entry ∈ shop.worker.pending, shop.worker.passes entry.1 entry.2 = true)
    (staying : shop.worker.exited = false)
    (due : shop.worker.pending ≠ [] ∨ shop.worker.running = false) :
    ∃ event after, event.own = true ∧ Move shop event after := by
  cases active : shop.worker.active with
  | some entry =>
      obtain ⟨number, job⟩ := entry
      have passed := passes (number, job) (by simp [pending, active])
      cases carrying : shop.carrying with
      | false => exact ⟨_, _, rfl, .execute active carrying passed⟩
      | true => exact ⟨_, _, rfl, .advance (step?_active active passed) (by simp [active, carrying])⟩
  | none =>
      have free : shop.worker.active.isSome = shop.carrying := by
        cases carrying : shop.carrying with
        | false => simp [active]
        | true => exact kept.carried carrying
      cases queue : shop.worker.queue with
      | cons first rest => exact ⟨_, _, rfl, .advance (step?_idle active queue) free⟩
      | nil =>
          have stopped : shop.worker.running = false := by
            simpa [pending, active, queue] using due
          have moved : shop.worker.step? = some { shop.worker with exited := true } := by
            simp [step?, active, queue, stopped, staying]
          exact ⟨_, _, rfl, .advance moved free⟩

theorem bounded (kept : Kept events shop) :
    events.countP Event.own ≤ 3 * (submissions events).length + 1 := by
  have length := kept.books.length_eq
  have carried := kept.carried
  rw [kept.counted, ← length, pending, List.length_append]
  have exited : shop.worker.exited.toNat ≤ 1 := Bool.toNat_le _
  cases active : shop.worker.active <;> cases carrying : shop.carrying <;>
    simp [active, carrying] at carried ⊢ <;> omega

end Kept

/-- What clients may rely on, whatever they and the thread did so far. -/
structure Diligent (events : List (Event α)) (shop : Shop α) : Prop where
  numbered : (submissions events).map Prod.fst = List.range (submissions events).length
  in_order : shop.executed <+: (submissions events).map Prod.fst
  once : shop.executed.Nodup
  /-- A result is written once, and it is that of its own job. -/
  written_once : (shop.worker.slots.map Prod.fst).Nodup
  own : ∀ number result, (number, result) ∈ shop.worker.slots →
    ∃ job, (number, job) ∈ submissions events ∧ result = job.result
  /-- Whoever waited for a job got what that job came to. -/
  answered : ∀ number answer, .synced number answer ∈ events →
    ∃ job, (number, job) ∈ submissions events ∧ answer = job.result
  /-- Behind a result all jobs up to its own have run. -/
  earlier : ∀ number, shop.worker.isReady number = true → ∀ other ≤ number, other ∈ shop.executed
  /-- When the thread is gone every job has run and has its result. -/
  finished : shop.worker.exited = true → shop.executed = (submissions events).map Prod.fst ∧
    ∀ number job, (number, job) ∈ submissions events →
      shop.worker.result? number = some job.result
  /-- While gates are open the thread has a step to make as long as there is a job, or until it exits
  if it was stopped; and it never makes more than three steps for a job and one to exit. -/
  progress : (∀ entry ∈ submissions events, shop.worker.passes entry.1 entry.2 = true) →
    shop.worker.exited = false → shop.worker.pending ≠ [] ∨ shop.worker.running = false →
    ∃ event after, event.own = true ∧ Move shop event after
  bounded : events.countP Event.own ≤ 3 * (submissions events).length + 1
  /-- If it is left to run, waiting comes to an end, and so does closing the worker. -/
  syncs : ∀ number job, (number, job) ∈ submissions events →
    (∀ entry ∈ submissions events, entry.1 ≤ number →
      shop.worker.passes entry.1 entry.2 = true) →
    (shop.worker.sync? number).1 = some job.result
  closes : shop.worker.close.exited = true ∧
    shop.worker.close.ran = (submissions events).map Prod.fst ∧
    ∀ number job, (number, job) ∈ submissions events →
      shop.worker.close.result? number = some job.result

theorem Run.diligent (run : Run events shop) : Diligent events shop := by
  have kept := run.kept
  have books := kept.books
  constructor
  case numbered =>
    have length := congrArg List.length books.numbered
    rw [List.length_map, List.length_range] at length
    rw [books.numbered, length]
  case in_order => exact kept.executed_first
  case once => exact books.distinct.sublist kept.executed_first.sublist
  case written_once => exact books.slots_nodup
  case own => exact fun number result written => books.own written
  case answered => exact fun number answer asked => books.own (kept.synced number answer asked)
  case earlier =>
    intro number ready other early
    refine kept.ran_subset ?_
    rw [books.ran_eq, List.mem_range]
    exact Nat.lt_of_le_of_lt early (books.isReady_iff.mp ready)
  case finished =>
    intro exited
    exact ⟨kept.finished exited, (books.finished (books.ended exited).2).2⟩
  case progress =>
    intro passes staying due
    obtain ⟨past, submitted, _⟩ := books.split
    refine kept.progress (fun entry member => passes entry ?_) staying due
    rw [submitted]
    exact List.mem_append_right _ member
  case bounded => exact kept.bounded
  case syncs => exact fun number job member passes => books.sync? member passes
  case closes =>
    obtain ⟨closed, exited⟩ := books.close
    exact ⟨exited, closed.finished (closed.ended exited).2⟩

/-- A job that waits for its gate, one that fails, and one that nobody waits for. -/
def errands : List (Nat × Job Nat) :=
  [(0, { result := .ok 7, gated := true }), (1, { result := .error .unsupported }),
    (2, { result := .ok 9 })]

theorem diligent_stopped_early :
    ∃ (events : List (Event Nat)) (shop : Shop Nat), Run events shop ∧
      submissions events = errands ∧ shop.worker.exited = true ∧ shop.executed = [0, 1, 2] ∧
      .synced 1 (.error .unsupported) ∈ events ∧ .synced 0 (.ok 7) ∈ events ∧
      Diligent events shop := by
  have stopped : Run _ { worker := { queue := errands, submitted := 3, running := false } } :=
    Run.start
      |>.move (.submit { result := .ok 7, gated := true } rfl)
      |>.move (.submit { result := .error .unsupported } rfl)
      |>.move (.submit { result := .ok 9 } rfl)
      |>.move (.abandon 2)
      |>.move .stop
  have first : Run _ {
      worker := {
        queue := errands.drop 1
        submitted := 3
        opened := [0]
        slots := [(0, .ok 7)]
        running := false }
      executed := [0] } :=
    stopped
      |>.move (.advance rfl rfl)
      |>.move (.release 0)
      |>.move (.execute rfl rfl rfl)
      |>.move (.advance rfl rfl)
  have second : Run _ {
      worker := {
        queue := errands.drop 2
        submitted := 3
        opened := [0]
        slots := [(1, .error .unsupported), (0, .ok 7)]
        running := false }
      executed := [0, 1] } :=
    first
      |>.move (.advance rfl rfl)
      |>.move (.execute rfl rfl rfl)
      |>.move (.advance rfl rfl)
  have synced := second
    |>.move (.sync (show result? _ 1 = some (.error .unsupported) from rfl))
    |>.move (.sync (show result? _ 0 = some (.ok 7) from rfl))
  have run := synced
    |>.move (.advance rfl rfl)
    |>.move (.execute rfl rfl rfl)
    |>.move (.advance rfl rfl)
    |>.move (.advance rfl rfl)
  exact ⟨_, _, run, rfl, rfl, rfl, by simp, by simp, run.diligent⟩

end VideoSchedule.Worker

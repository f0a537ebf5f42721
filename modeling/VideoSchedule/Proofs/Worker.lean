import VideoSchedule.Proofs.Window
import VideoSchedule.Worker

/-!
A worker whose jobs are not gated. Every job has one outcome, its own result, from its submission on;
whoever waits for a job gets it.
-/

namespace VideoSchedule.Worker

variable {α : Type} {worker next : Worker α} {number : Nat} {result : Except BackendError α}

def pending (worker : Worker α) : List (Nat × Job α) := worker.active.toList ++ worker.queue

/-- What the jobs came to, or will come to. -/
def outcomes (worker : Worker α) : List (Nat × Except BackendError α) :=
  worker.slots ++ worker.pending.map fun entry => (entry.1, entry.2.result)

structure Free (worker : Worker α) : Prop where
  running : worker.running = true
  ungated : ∀ entry ∈ worker.pending, entry.2.gated = false
  numbered : (worker.outcomes.map Prod.fst).Perm (List.range worker.submitted)

theorem free_new : ({} : Worker α).Free := ⟨rfl, by simp [pending], List.Perm.refl _⟩

theorem Free.distinct (free : worker.Free) : (worker.outcomes.map Prod.fst).Nodup :=
  free.numbered.nodup_iff.mpr List.nodup_range

theorem outcomes_submit (job : Job α) (worker : Worker α) :
    (worker.submit job).2.outcomes = worker.outcomes ++ [(worker.submitted, job.result)] := by
  simp [submit, outcomes, pending]

theorem Free.submit (free : worker.Free) {job : Job α} (ungated : job.gated = false) :
    (worker.submit job).2.Free where
  running := free.running
  ungated entry member := by
    have split : (worker.submit job).2.pending = worker.pending ++ [(worker.submitted, job)] :=
      (List.append_assoc ..).symm
    rw [split] at member
    rcases List.mem_append.mp member with before | new
    · exact free.ungated entry before
    · rw [List.mem_singleton.mp new]
      exact ungated
  numbered := by
    rw [outcomes_submit, List.map_append, List.map_singleton]
    refine (free.numbered.append_right _).trans ?_
    rw [← List.range_succ]
    exact List.Perm.refl _

def steps (worker : Worker α) : Nat := 2 * worker.queue.length + worker.active.toList.length

theorem Free.step (free : worker.Free) (busy : worker.pending ≠ []) :
    ∃ next, worker.step? = some next ∧ next.Free ∧ next.outcomes.Perm worker.outcomes ∧
      next.steps + 1 = worker.steps := by
  have kept : ∀ {next : Worker α}, next.running = true →
      (∀ entry ∈ next.pending, entry ∈ worker.pending) → next.submitted = worker.submitted →
      next.outcomes.Perm worker.outcomes → next.Free ∧ next.outcomes.Perm worker.outcomes := by
    intro next running fewer submitted same
    refine ⟨⟨running, fun entry member => free.ungated entry (fewer entry member), ?_⟩, same⟩
    rw [submitted]
    exact (same.map Prod.fst).trans free.numbered
  cases active : worker.active with
  | some entry =>
      obtain ⟨number, job⟩ := entry
      have passes : worker.passes number job = true := by
        have ungated : job.gated = false := free.ungated (number, job) (by simp [pending, active])
        simp [Worker.passes, ungated]
      refine ⟨_, by simp only [step?, active, passes, if_true]; rfl, ?_⟩
      rw [← and_assoc]
      refine ⟨kept free.running (by simp +contextual [pending]) rfl ?_, by simp [steps, active]⟩
      simp only [outcomes, pending, active, Option.toList_none, Option.toList_some, List.nil_append,
        List.map_cons, List.cons_append]
      exact List.perm_middle.symm
  | none =>
      cases queue : worker.queue with
      | nil => exact absurd (by simp [pending, active, queue]) busy
      | cons first rest =>
          refine ⟨{ worker with active := some first, queue := rest }, by simp [step?, active, queue], ?_⟩
          rw [← and_assoc]
          refine ⟨kept free.running (by simp [pending, active, queue]) rfl ?_, ?_⟩
          · simp [outcomes, pending, active, queue]
          · simp only [steps, active, queue, Option.toList_none, Option.toList_some, List.length_nil,
              List.length_cons]
            omega

theorem Free.moves (free : worker.Free) {count : Nat} (enough : worker.steps ≤ count) :
    (worker.moves count).Free ∧ (worker.moves count).outcomes.Perm worker.outcomes ∧
      (worker.moves count).pending = [] := by
  induction count generalizing worker with
  | zero =>
      refine ⟨free, List.Perm.refl _, ?_⟩
      have none : worker.queue.length = 0 ∧ worker.active.toList.length = 0 := by
        rw [steps] at enough
        omega
      simp only [Worker.moves, pending, List.eq_nil_of_length_eq_zero none.1,
        List.eq_nil_of_length_eq_zero none.2, List.append_nil]
  | succ count ih =>
      by_cases busy : worker.pending = []
      · obtain ⟨idle, empty⟩ := List.append_eq_nil_iff.mp busy
        have active : worker.active = none := by simpa using idle
        have halts : worker.step? = none := by simp [step?, active, empty, free.running]
        rw [Worker.moves, halts]
        exact ⟨free, List.Perm.refl _, busy⟩
      · obtain ⟨next, moved, freeNext, same, fewer⟩ := free.step busy
        obtain ⟨freeLast, sameLast, done⟩ := ih freeNext (by omega)
        rw [Worker.moves, moved]
        exact ⟨freeLast, sameLast.trans same, done⟩

theorem Free.settle (free : worker.Free) :
    worker.settle.Free ∧ worker.settle.outcomes.Perm worker.outcomes ∧ worker.settle.pending = [] := by
  refine free.moves ?_
  have one : worker.active.toList.length ≤ 1 := by cases worker.active <;> simp
  rw [steps]
  omega

theorem Free.sync (free : worker.Free) (owed : (number, result) ∈ worker.outcomes) :
    (worker.sync? number).1 = some result ∧ (worker.sync? number).2.Free ∧
      (worker.sync? number).2.outcomes.Perm worker.outcomes := by
  obtain ⟨freeAfter, same, done⟩ := free.settle
  refine ⟨?_, freeAfter, same⟩
  have ran : worker.settle.outcomes = worker.settle.slots := by
    rw [outcomes, done, List.map_nil, List.append_nil]
  have distinct := freeAfter.distinct
  rw [ran] at same distinct
  exact lookup_of_mem distinct (same.mem_iff.mpr owed)

end VideoSchedule.Worker

import VideoSchedule.Action

/-!
How an action runs. `Action.Runs` says in what an action ends and that it left no notice of broken
bookkeeping on the way; there is one lemma for each way to build an action. `Action.Succeeds` reads
a run that ended well backwards, and `Action.Fails` says where a run broke off, whatever it noted.
-/

namespace VideoSchedule

/-- Notices that can only come of broken bookkeeping in the encoder itself. -/
def Notice.accuses : Notice → Bool
  | .referenceRefused _ _ | .dpbFull _ | .nothingToPredictFrom | .noPicturePrecedes _
  | .noPreviousPicture _ | .stillInUse _ | .countUnderflow _ _ | .queueOverflow _
  | .drainedNothing => true
  | _ => false

namespace Action

variable {σ τ α β : Type}

structure Runs (action : Action σ α) (before : σ) (result : Except EncodeError α)
    (after : σ) : Prop where
  result_eq : (action before).result = result
  state_eq : (action before).state = after
  clean : ∀ notice ∈ (action before).notices, notice.accuses = false

theorem Runs.of_eq {action : Action σ α} {before after : σ} {result : Except EncodeError α}
    (ends : action before = ⟨result, after, []⟩) : Runs action before result after := by
  refine ⟨?_, ?_, ?_⟩ <;> simp [ends]

theorem runs_pure (value : α) (state : σ) : Runs (Pure.pure value) state (.ok value) state :=
  ⟨rfl, rfl, by simp [pure_run]⟩

theorem runs_get (state : σ) : Runs get state (.ok state) state := ⟨rfl, rfl, by simp [get]⟩

theorem runs_modify (change : σ → σ) (state : σ) :
    Runs (modify change) state (.ok ()) (change state) :=
  ⟨rfl, rfl, by simp [modify]⟩

theorem runs_fail (cause : EncodeError) (state : σ) :
    Runs (fail cause : Action σ α) state (.error cause) state :=
  ⟨rfl, rfl, by simp [fail]⟩

theorem runs_note {notice : Notice} (harmless : notice.accuses = false) (state : σ) :
    Runs (note notice) state (.ok ()) state :=
  ⟨rfl, rfl, by simpa [note] using harmless⟩

theorem runs_refuse {notice : Notice} (harmless : notice.accuses = false) (cause : EncodeError)
    (state : σ) : Runs (refuse notice cause : Action σ α) state (.error cause) state :=
  ⟨rfl, rfl, by simpa [refuse] using harmless⟩

theorem runs_ofExcept (result : Except EncodeError α) (state : σ) :
    Runs (ofExcept result) state result state :=
  ⟨rfl, rfl, by simp [ofExcept]⟩

theorem runs_ofExcept_ok {result : Except EncodeError α} {value : α} (ok : result = .ok value)
    (state : σ) : Runs (ofExcept result) state (.ok value) state := by
  subst ok
  exact runs_ofExcept _ _

theorem runs_require {value : Option α} {found : α} (present : value = some found)
    (cause : EncodeError) (state : σ) : Runs (require value cause) state (.ok found) state := by
  subst present
  exact ⟨rfl, rfl, by simp [require]⟩

theorem runs_update (change : σ → α × σ) (state : σ) :
    Runs (update change) state (.ok (change state).1) (change state).2 :=
  ⟨rfl, rfl, by simp [update]⟩

theorem Runs.bind {first : Action σ α} {next : α → Action σ β} {before middle after : σ}
    {value : α} {result : Except EncodeError β} (head : Runs first before (.ok value) middle)
    (tail : Runs (next value) middle result after) : Runs (first >>= next) before result after := by
  obtain ⟨headResult, headState, headClean⟩ := head
  obtain ⟨tailResult, tailState, tailClean⟩ := tail
  cases ended : first before with
  | mk ending left notices =>
      simp only [ended] at headResult headState headClean
      subst headResult headState
      refine ⟨?_, ?_, ?_⟩
      · simpa [bind_run, Action.bind, ended] using tailResult
      · simpa [bind_run, Action.bind, ended] using tailState
      · intro notice member
        simp only [bind_run, Action.bind, ended, List.mem_append] at member
        exact member.elim (headClean notice) (tailClean notice)

theorem Runs.bind_error {first : Action σ α} {next : α → Action σ β} {before after : σ}
    {cause : EncodeError} (head : Runs first before (.error cause) after) :
    Runs (first >>= next) before (.error cause) after := by
  obtain ⟨headResult, headState, headClean⟩ := head
  cases ended : first before with
  | mk ending left notices =>
      simp only [ended] at headResult headState headClean
      subst headResult headState
      refine ⟨?_, ?_, ?_⟩
      · simp [bind_run, Action.bind, ended]
      · simp [bind_run, Action.bind, ended]
      · simpa [bind_run, Action.bind, ended] using headClean

theorem runs_forM_nil (action : α → Action σ Unit) (state : σ) :
    Runs ([].forM action) state (.ok ()) state :=
  runs_pure () state

theorem Runs.forM_cons {action : α → Action σ Unit} {first : α} {rest : List α}
    {before middle after : σ} {result : Except EncodeError Unit}
    (head : Runs (action first) before (.ok ()) middle)
    (tail : Runs (rest.forM action) middle result after) :
    Runs ((first :: rest).forM action) before result after :=
  head.bind tail

theorem runs_when_true {condition : Prop} [Decidable condition] {action : Action σ Unit}
    {before after : σ} {result : Except EncodeError Unit} (holds : condition)
    (runs : Runs action before result after) : Runs (when condition action) before result after := by
  simpa [when, holds] using runs

theorem runs_when_false {condition : Prop} [Decidable condition] {action : Action σ Unit}
    (fails : ¬condition) (state : σ) : Runs (when condition action) state (.ok ()) state := by
  simpa [when, fails] using runs_pure () state

theorem Runs.attempt {action : Action σ α} {before after : σ} {result : Except EncodeError α}
    (runs : Runs action before result after) :
    Runs (attempt action) before (.ok result) after := by
  obtain ⟨resultEq, stateEq, clean⟩ := runs
  refine ⟨?_, ?_, ?_⟩
  · simp [Action.attempt, resultEq]
  · simp [Action.attempt, stateEq]
  · simpa [Action.attempt] using clean

theorem Runs.zoom {part : σ → τ} {put : τ → σ → σ} {action : Action τ α} {before : σ}
    {after : τ} {result : Except EncodeError α} (runs : Runs action (part before) result after) :
    Runs (zoom part put action) before result (put after before) := by
  obtain ⟨resultEq, stateEq, clean⟩ := runs
  refine ⟨?_, ?_, ?_⟩
  · simp [Action.zoom, resultEq]
  · simp [Action.zoom, stateEq]
  · simpa [Action.zoom] using clean

theorem Runs.zoom_to {part : σ → τ} {put : τ → σ → σ} {action : Action τ α} {before after : σ}
    {inner : τ} {result : Except EncodeError α} (runs : Runs action (part before) result inner)
    (same : put inner before = after) : Runs (Action.zoom part put action) before result after := by
  subst same
  exact runs.zoom

theorem Runs.onSecond {action : Action τ α} {left : σ} {before after : τ}
    {result : Except EncodeError α} (runs : Runs action before result after) :
    Runs (onSecond action) (left, before) result (left, after) :=
  Runs.zoom runs

theorem onSecond_bind (first : Action τ α) (next : α → Action τ β) :
    (onSecond (first >>= next) : Action (σ × τ) β) =
      onSecond first >>= fun value => onSecond (next value) := by
  funext state
  simp only [onSecond, Action.zoom, bind_run, Action.bind]
  rcases first state.2 with ⟨cause | value, middle, notices⟩ <;> rfl

theorem onSecond_forM (action : α → Action τ Unit) (values : List α) :
    (onSecond (values.forM action) : Action (σ × τ) Unit) =
      values.forM fun value => onSecond (action value) := by
  induction values with
  | nil => rfl
  | cons value rest ih =>
      refine (onSecond_bind _ _).trans ?_
      rw [ih]
      rfl

/-! What holds after an action, however it ends. -/

def Ensures (action : Action σ α) (before : σ) (after : Except EncodeError α → σ → Prop) : Prop :=
  ∃ result state, Runs action before result state ∧ after result state

theorem Runs.ensures {action : Action σ α} {before state : σ} {result : Except EncodeError α}
    {after : Except EncodeError α → σ → Prop} (runs : Runs action before result state)
    (holds : after result state) : Ensures action before after :=
  ⟨result, state, runs, holds⟩

theorem Ensures.mono {action : Action σ α} {before : σ}
    {after later : Except EncodeError α → σ → Prop} (ensures : Ensures action before after)
    (implies : ∀ result state, after result state → later result state) :
    Ensures action before later := by
  obtain ⟨result, state, runs, holds⟩ := ensures
  exact ⟨result, state, runs, implies result state holds⟩

theorem Ensures.and {action : Action σ α} {before : σ}
    {first second : Except EncodeError α → σ → Prop}
    (left : Ensures action before first) (right : Ensures action before second) :
    Ensures action before fun result state => first result state ∧ second result state := by
  obtain ⟨result, state, runs, holds⟩ := left
  obtain ⟨other, last, runsOther, holdsOther⟩ := right
  cases runs.result_eq.symm.trans runsOther.result_eq
  cases runs.state_eq.symm.trans runsOther.state_eq
  exact ⟨result, state, runs, holds, holdsOther⟩

theorem Ensures.bind {first : Action σ α} {next : α → Action σ β} {before : σ}
    {middle : Except EncodeError α → σ → Prop} {after : Except EncodeError β → σ → Prop}
    (head : Ensures first before middle)
    (tail : ∀ value state, middle (.ok value) state → Ensures (next value) state after)
    (stop : ∀ cause state, middle (.error cause) state → after (.error cause) state) :
    Ensures (first >>= next) before after := by
  obtain ⟨result, state, runs, holds⟩ := head
  cases result with
  | error cause => exact (Runs.bind_error runs).ensures (stop cause state holds)
  | ok value =>
      obtain ⟨ending, last, rest, holdsAfter⟩ := tail value state holds
      exact (runs.bind rest).ensures holdsAfter

theorem Runs.bind_ensures {first : Action σ α} {next : α → Action σ β} {before middle : σ}
    {value : α} {after : Except EncodeError β → σ → Prop}
    (head : Runs first before (.ok value) middle) (tail : Ensures (next value) middle after) :
    Ensures (first >>= next) before after := by
  obtain ⟨result, state, runs, holds⟩ := tail
  exact (head.bind runs).ensures holds

/-! Runs read backwards: an action that succeeded went through each of its parts. -/

def Succeeds (action : Action σ α) (before : σ) (value : α) (after : σ) : Prop :=
  ∃ notices, action before = ⟨.ok value, after, notices⟩

theorem succeeds_pure {value other : α} {before after : σ} :
    Succeeds (Pure.pure value) before other after ↔ other = value ∧ after = before := by
  simp [Succeeds, pure_run, eq_comm]

theorem succeeds_get {before value after : σ} :
    Succeeds get before value after ↔ value = before ∧ after = before := by
  simp [Succeeds, get, eq_comm]

theorem succeeds_modify {change : σ → σ} {before after : σ} :
    Succeeds (modify change) before () after ↔ after = change before := by
  simp [Succeeds, modify, eq_comm]

theorem not_succeeds_refuse {notice : Notice} {cause : EncodeError} {before after : σ} {value : α} :
    ¬Succeeds (refuse notice cause) before value after := by
  simp [Succeeds, refuse]

theorem succeeds_bind {first : Action σ α} {next : α → Action σ β} {before after : σ} {value : β} :
    Succeeds (first >>= next) before value after ↔
      ∃ found middle, Succeeds first before found middle ∧
        Succeeds (next found) middle value after := by
  constructor
  · rintro ⟨notices, ended⟩
    rw [bind_run] at ended
    unfold Action.bind at ended
    rcases head : first before with ⟨cause | found, middle, early⟩ <;> rw [head] at ended
    · cases ended
    · refine ⟨found, middle, ⟨early, head⟩, ?_⟩
      dsimp only at ended
      rcases tail : next found middle with ⟨result, state, late⟩
      rw [tail] at ended
      cases ended
      exact ⟨late, tail⟩
  · rintro ⟨found, middle, ⟨early, head⟩, late, tail⟩
    exact ⟨early ++ late, by rw [bind_run, Action.bind, head]; simp only [tail]⟩

/-! Runs that break off. -/

def Fails (action : Action σ α) (before : σ) (cause : EncodeError) (after : σ) : Prop :=
  ∃ notices, action before = ⟨.error cause, after, notices⟩

theorem Fails.result_eq {action : Action σ α} {before after : σ} {cause : EncodeError}
    (fails : Fails action before cause after) : (action before).result = .error cause := by
  obtain ⟨notices, ended⟩ := fails
  rw [ended]

theorem Fails.state_eq {action : Action σ α} {before after : σ} {cause : EncodeError}
    (fails : Fails action before cause after) : (action before).state = after := by
  obtain ⟨notices, ended⟩ := fails
  rw [ended]

theorem fails_fail (cause : EncodeError) (state : σ) :
    Fails (fail cause : Action σ α) state cause state :=
  ⟨[], rfl⟩

theorem fails_refuse (notice : Notice) (cause : EncodeError) (state : σ) :
    Fails (refuse notice cause : Action σ α) state cause state :=
  ⟨[notice], rfl⟩

theorem Fails.bind {first : Action σ α} {before after : σ} {cause : EncodeError}
    (head : Fails first before cause after) (next : α → Action σ β) :
    Fails (first >>= next) before cause after := by
  obtain ⟨notices, ended⟩ := head
  exact ⟨notices, by rw [bind_run, Action.bind, ended]⟩

theorem fails_when {condition : Prop} [Decidable condition] {action : Action σ Unit}
    {before after : σ} {cause : EncodeError} (holds : condition)
    (fails : Fails action before cause after) : Fails (when condition action) before cause after := by
  rwa [when, if_pos holds]

theorem Runs.bind_fails {first : Action σ α} {next : α → Action σ β} {before middle after : σ}
    {value : α} {cause : EncodeError} (head : Runs first before (.ok value) middle)
    (tail : Fails (next value) middle cause after) : Fails (first >>= next) before cause after := by
  obtain ⟨notices, ended⟩ := tail
  rcases started : first before with ⟨result, state, early⟩
  have answered := head.result_eq
  have arrived := head.state_eq
  rw [started] at answered arrived
  subst answered arrived
  exact ⟨early ++ notices, by rw [bind_run, Action.bind, started]; simp only [ended]⟩

/-- Behind a first part that changes nothing and says nothing, only the second part shows. -/
theorem bind_silent {first : Action σ α} {next : α → Action σ β} {before middle : σ} {value : α}
    (head : first before = ⟨.ok value, middle, []⟩) : (first >>= next) before = next value middle := by
  rw [bind_run, Action.bind, head]
  rfl

end Action

end VideoSchedule

import VideoSchedule.Notice

/-!
Actions: steps on a state that may end in an error. What an action changed before an error stays
changed, and the notices it left stay left.
-/

namespace VideoSchedule

structure Outcome (σ α : Type) where
  result : Except EncodeError α
  state : σ
  notices : List Notice := []

def Action (σ α : Type) : Type := σ → Outcome σ α

namespace Action

variable {σ τ α β : Type}

def run (action : Action σ α) (state : σ) : Outcome σ α := action state

def pure (value : α) : Action σ α := fun state => ⟨.ok value, state, []⟩

def bind (first : Action σ α) (next : α → Action σ β) : Action σ β := fun state =>
  match first state with
  | ⟨.ok value, middle, notices⟩ =>
      let last := next value middle
      ⟨last.result, last.state, notices ++ last.notices⟩
  | ⟨.error cause, middle, notices⟩ => ⟨.error cause, middle, notices⟩

instance : Monad (Action σ) where
  pure := Action.pure
  bind := Action.bind

theorem pure_run (value : α) (state : σ) :
    (Pure.pure value : Action σ α) state = ⟨.ok value, state, []⟩ := rfl

theorem bind_run (first : Action σ α) (next : α → Action σ β) (state : σ) :
    (first >>= next) state = Action.bind first next state := rfl

instance : LawfulMonad (Action σ) := LawfulMonad.mk' (Action σ)
  (by
    intro α action
    funext state
    show Action.bind action (Action.pure ∘ id) state = action state
    unfold Action.bind
    rcases action state with ⟨result | value, middle, notices⟩ <;> simp [Action.pure])
  (by
    intro α β value next
    funext state
    show Action.bind (Action.pure value) next state = next value state
    simp [Action.bind, Action.pure])
  (by
    intro α β γ first next last
    funext state
    show Action.bind (Action.bind first next) last state =
      Action.bind first (fun value => Action.bind (next value) last) state
    unfold Action.bind
    rcases first state with ⟨result | value, middle, notices⟩
    · rfl
    · dsimp only
      rcases next value middle with ⟨result' | value', middle', notices'⟩ <;> simp)

def get : Action σ σ := fun state => ⟨.ok state, state, []⟩

def modify (change : σ → σ) : Action σ Unit := fun state => ⟨.ok (), change state, []⟩

def fail (cause : EncodeError) : Action σ α := fun state => ⟨.error cause, state, []⟩

def note (notice : Notice) : Action σ Unit := fun state => ⟨.ok (), state, [notice]⟩

def refuse (notice : Notice) (cause : EncodeError) : Action σ α := fun state =>
  ⟨.error cause, state, [notice]⟩

def ofExcept (result : Except EncodeError α) : Action σ α := fun state => ⟨result, state, []⟩

def when (condition : Prop) [Decidable condition] (action : Action σ Unit) : Action σ Unit :=
  if condition then action else Pure.pure ()

def require (value : Option α) (cause : EncodeError) : Action σ α := fun state =>
  ⟨match value with
    | some found => .ok found
    | none => .error cause, state, []⟩

def update (change : σ → α × σ) : Action σ α := fun state =>
  ⟨.ok (change state).1, (change state).2, []⟩

def attempt (action : Action σ α) : Action σ (Except EncodeError α) := fun state =>
  match action state with
  | ⟨result, after, notices⟩ => ⟨.ok result, after, notices⟩

def zoom (part : σ → τ) (put : τ → σ → σ) (action : Action τ α) : Action σ α := fun state =>
  match action (part state) with
  | ⟨result, after, notices⟩ => ⟨result, put after state, notices⟩

def onSecond (action : Action τ α) : Action (σ × τ) α :=
  zoom Prod.snd (fun after state => (state.1, after)) action

end Action

end VideoSchedule

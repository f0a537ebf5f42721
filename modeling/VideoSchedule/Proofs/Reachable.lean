import VideoSchedule.Proofs.Client

/-!
Every state that a session can come to. A session starts from any configuration that is valid for the
capabilities of its backend; clients call in any order, and between two calls the backend may get
further on its own.
-/

namespace VideoSchedule

open VideoSchedule.Action

theorem Gop.layers_of_ofConfig? {config : Config} {caps : Capabilities} {gop : Gop}
    (valid : config.Valid) (made : ofConfig? config caps = some gop) : gop.maxBDepth ≤ 5 := by
  have frames : config.maxBFrames ≤ 16 := valid.maxBFrames_le
  have depth : config.maxBFrames.log2 ≤ 4 := by
    by_cases none : config.maxBFrames = 0
    · rw [none]
      decide
    · have small : config.maxBFrames < 2 ^ 5 := by omega
      exact Nat.le_of_lt_succ ((Nat.log2_lt none).mpr small)
  by_cases keys : onlyKeys config caps = true
  · simp only [ofConfig?, keys, if_true, Option.some.injEq] at made
    subst made
    exact Nat.zero_le _
  · by_cases refs : caps.maxPastRefs < 1
    · simp [ofConfig?, keys, refs] at made
    · by_cases both : usesB config caps = true
      · simp only [ofConfig?, keys, refs, both, Bool.false_eq_true, if_true, if_false,
          Option.some.injEq] at made
        subst made
        dsimp only
        split <;> omega
      · simp only [ofConfig?, keys, refs, both, Bool.false_eq_true, if_false,
          Option.some.injEq] at made
        subst made
        exact Nat.zero_le _

theorem Gop.shallow_of_ofConfig? {config : Config} {caps : Capabilities} {gop : Gop}
    (valid : config.Valid) (made : ofConfig? config caps = some gop) :
    gop.maxBDepth + 2 ≤ maxDpbSize := by
  have layers := layers_of_ofConfig? valid made
  rw [maxDpbSize]
  omega

namespace Encoder

variable {B : Backend} {start : B.State} {progress : B.State → B.State → Prop}
  {encoder : Encoder B}

/-- The states of a session between two calls, and between two steps of a call. -/
inductive Reachable (start : B.State) (progress : B.State → B.State → Prop) : Encoder B → Prop where
  | created (config : Config) (mode : BlockingMode) {encoder : Encoder B}
      (accepted : ((create start config mode : Action Unit (Encoder B)) ()).result = .ok encoder) :
      Reachable start progress encoder
  | called {encoder : Encoder B} (call : Call) (reachable : Reachable start progress encoder) :
      Reachable start progress (perform call encoder).state
  /-- Within a call that asks for packets or drains. -/
  | stepped {encoder : Encoder B} (mode : BlockingMode)
      (reachable : Reachable start progress encoder) :
      Reachable start progress (step mode encoder).state
  | ending {encoder : Encoder B} (reachable : Reachable start progress encoder) :
      Reachable start progress { encoder with draining := true }
  | queued {encoder : Encoder B} (picture : CodedPicture)
      (reachable : Reachable start progress encoder) :
      Reachable start progress { encoder with coded := encoder.coded ++ [picture] }
  /-- The backend gets further on its own. -/
  | progressed {encoder : Encoder B} {after : B.State} (moves : progress encoder.backend after)
      (reachable : Reachable start progress encoder) :
      Reachable start progress { encoder with backend := after }

def opened (start : B.State) (gop : Gop) (config : Config) (mode : BlockingMode) : Encoder B where
  backend := start
  caps := B.capabilities start
  scheduler := Scheduler.ofGop gop
  clock := DecodeClock.start gop.outputDelay gop.decodeDelay config.asyncDepth
  queue := { mode, capacity := config.asyncDepth }
  mode := mode

theorem create_eq_ok {config : Config} {mode : BlockingMode}
    (accepted : ((create start config mode : Action Unit (Encoder B)) ()).result = .ok encoder) :
    config.Valid ∧ ∃ gop, Gop.ofConfig? config (B.capabilities start) = some gop ∧
      encoder = opened start gop config mode := by
  cases validEq : config.validate with
  | error cause => simp [create, bind_run, Action.bind, Action.ofExcept, validEq] at accepted
  | ok _ =>
      cases made : Gop.ofConfig? config (B.capabilities start) with
      | none =>
          simp only [create, bind_run, Action.bind, Action.ofExcept, validEq, Gop.create, made,
            Action.refuse, reduceCtorEq] at accepted
      | some gop =>
          simp only [create, bind_run, Action.bind, Action.ofExcept, validEq, Gop.create, made,
            pure_run, Except.ok.injEq] at accepted
          exact ⟨config.validate_eq_ok_iff.mp validEq, gop, rfl, accepted.symm⟩

theorem running_created {ledger : Ledger B} (config : Config) (mode : BlockingMode)
    (accepted : ((create start config mode : Action Unit (Encoder B)) ()).result = .ok encoder)
    (starts : ledger.Holds start [] []) : encoder.Running ledger := by
  obtain ⟨valid, gop, made, rfl⟩ := create_eq_ok accepted
  have nothing : ∀ handle : Handle, ({} : Window B.Image).find? handle = none := fun _ => rfl
  have exact : ({} : Window B.Image).Exact [] := by
    intro level handle picture found
    rw [nothing] at found
    cases found
  have tidy : ({} : Window B.Image).Tidy [] :=
    ⟨exact, by simp [nothing], by simp [Window.claims]⟩
  have arranged : (Scheduler.ofGop gop).Arranged ({} : Window B.Image) [] [] :=
    Scheduler.arranged_start (Gop.shallow_of_ofConfig? valid made)
  constructor
  · have noPicture : ∀ handle,
        (opened start gop config mode : Encoder B).window.find? handle = none := nothing
    show (opened start gop config mode).Core ledger [] []
    exact {
      tidy := tidy
      arranged := ⟨[], [], arranged⟩
      distinct := List.nodup_nil
      flying := by simp [noPicture]
      numbered := by simp [noPicture]
      ended := by simp [opened, Scheduler.ofGop]
      stocked := by simp [Window.Stocked, noPicture]
      records := ⟨[], starts, List.Forall₂.nil⟩ }
  · exact valid.asyncDepth_pos
  · exact Nat.zero_le _
  · exact fun _ => rfl

theorem Sound.progressed {ledger : Ledger B} (sound : encoder.Sound ledger) {backend : B.State}
    (follows : ∀ {live flying}, ledger.Holds encoder.backend live flying →
      ledger.Holds backend live flying) : ({ encoder with backend } : Encoder B).Sound ledger := by
  rcases sound with running | ended
  · obtain ⟨records, holds, carries⟩ := running.core.records
    exact Or.inl (running.of_core (running.core.call ⟨records, follows holds, carries⟩) rfl rfl)
  · exact Or.inr ⟨ended.window, ended.queue, ended.waiting, ended.stopped, follows ended.records⟩

theorem Reachable.sound {ledger : Ledger B} (reachable : Reachable start progress encoder)
    (starts : ledger.Holds start [] [])
    (moves : ∀ {before after live flying}, progress before after →
      ledger.Holds before live flying → ledger.Holds after live flying) :
    encoder.Sound ledger := by
  induction reachable with
  | created config mode accepted => exact Or.inl (running_created config mode accepted starts)
  | called call _ sound =>
      obtain ⟨_, after, runs, safe⟩ := perform_ok sound call
      rw [runs.state_eq]
      exact safe.sound
  | stepped mode _ sound =>
      obtain ⟨_, after, runs, soundAfter, _⟩ := step_ok sound mode
      rw [runs.state_eq]
      exact soundAfter
  | ending _ sound => exact sound.drains
  | queued picture _ sound => exact sound.withCoded _
  | progressed moved _ sound => exact sound.progressed (moves moved)

def performAll : List Call → Encoder B → List (Call × Except EncodeError Answer) × Encoder B
  | [], encoder => ([], encoder)
  | call :: rest, encoder =>
      let (trail, last) := performAll rest (perform call encoder).state
      ((call, (perform call encoder).result) :: trail, last)

theorem Reachable.performAll (reachable : Reachable start progress encoder) (calls : List Call) :
    Reachable start progress (Encoder.performAll calls encoder).2 := by
  induction calls generalizing encoder with
  | nil => exact reachable
  | cons call rest ih => exact ih (.called call reachable)

end Encoder

def Ledger.blank (B : Backend) : Ledger B where
  Holds _ _ _ := True
  perm _ _ := trivial
  alloc _ _ := by split <;> trivial
  issue _ _ _ _ := by split <;> trivial
  sync _ := trivial
  output _ _ _ := trivial
  free _ _ := trivial

theorem Encoder.Reachable.invariant {B : Backend} {start : B.State}
    {progress : B.State → B.State → Prop} {encoder : Encoder B}
    (reachable : Reachable start progress encoder) : encoder.Sound (Ledger.blank B) :=
  reachable.sound trivial fun _ _ => trivial

end VideoSchedule

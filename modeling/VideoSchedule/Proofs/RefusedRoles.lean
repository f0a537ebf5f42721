import VideoSchedule.Proofs.Naming

/-!
Naming a picture in roles of which one is refused. The roles are entered one after the other and
counted at the end, so the roles before the refused one stay entered, and nobody counts them.
-/

namespace VideoSchedule

open VideoSchedule.Action

/-! Places in which a picture is named, and holds counted. -/

namespace Window

variable {ι : Type}

def mentions (target : Handle) (window : Window ι) : Nat :=
  (window.entries.flatMap fun entry => entry.2.held).count target

theorem mentions_adjust {window : Window ι} {handle : Handle}
    {picture : Picture ι} (found : window.find? handle = some picture)
    (change : Picture ι → Picture ι) (target : Handle) :
    (window.adjust handle change).mentions target + picture.held.count target =
      window.mentions target + (change picture).held.count target := by
  obtain ⟨front, back, around⟩ := exists_around found
  simp only [mentions, around.entries, (around.adjust change).entries, List.flatMap_append,
    List.flatMap_cons, List.count_append]
  omega

theorem mentions_retain (handle : Handle) (count : Nat) (window : Window ι) (target : Handle) :
    (window.adjust handle (·.retain count)).mentions target = window.mentions target := by
  rw [adjust_eq_each, mentions, entries_each, List.flatMap_map, mentions]
  congr 1
  refine List.flatMap_congr fun entry _ => ?_
  dsimp only
  split <;> rfl

def counted (level : HoldLevel) (handle : Handle) (window : Window ι) : Nat :=
  match window.find? handle with
  | some picture => picture.holds.get level
  | none => 0

theorem counted_adjust {change : Picture ι → Picture ι}
    (keeps : ∀ picture, (change picture).holds = picture.holds) (level : HoldLevel)
    (handle other : Handle) (window : Window ι) :
    (window.adjust handle change).counted level other = window.counted level other := by
  unfold counted
  rw [find?_adjust]
  by_cases same : other = handle
  · rw [if_pos same]
    cases window.find? other with
    | none => rfl
    | some picture => simp only [Option.map_some, keeps]
  · rw [if_neg same]

theorem counted_retain {window : Window ι} {target : Handle} {named : Picture ι}
    (found : window.find? target = some named) (count : Nat) (level : HoldLevel) (other : Handle) :
    (window.adjust target (·.retain count)).counted level other =
      window.counted level other + if other = target then count else 0 := by
  unfold counted
  rw [find?_adjust]
  by_cases same : other = target
  · rw [if_pos same, if_pos same, same, found]
    cases level <;> rfl
  · rw [if_neg same, if_neg same]
    rfl

/-- Live pictures count at both levels just the places in which pictures name them. -/
def Agrees (window : Window ι) : Prop :=
  ∀ handle ∈ window.handles, ∀ level, window.counted level handle = window.mentions handle

end Window

/-! Roles that a picture has room for. -/

namespace Roles

variable {ι : Type}

/-- The picture with `target` at the end of each place that the roles choose. -/
def append (roles : Roles) (target : Handle) (targetOrder : Nat) (picture : Picture ι) :
    Picture ι :=
  { picture with
    past := picture.past ++
      if roles.reference ∧ targetOrder < picture.displayOrder then [target] else []
    future := picture.future ++
      if roles.reference ∧ picture.displayOrder ≤ targetOrder then [target] else []
    dpb := picture.dpb ++ if roles.dpb then [target] else []
    previous := if roles.previous then some target else picture.previous }

theorem enter_eq_append (roles : Roles) (target : Handle) (order : Nat) :
    roles.enter target order = (roles.append target order : Picture ι → Picture ι) := by
  funext picture
  obtain ⟨reference, dpb, previous⟩ := roles
  by_cases earlier : order < picture.displayOrder
  · have side : ¬picture.displayOrder ≤ order := by omega
    cases reference <;> cases dpb <;> cases previous <;>
      simp [append, enter, follow, keep, list, Prediction.enterList, earlier, side]
  · have side : picture.displayOrder ≤ order := by omega
    cases reference <;> cases dpb <;> cases previous <;>
      simp [append, enter, follow, keep, list, Prediction.enterList, earlier, side]

structure Granted (roles : Roles) (handle target : Handle) (picture : Picture ι) : Prop where
  lists : roles.reference = true → handle ≠ target ∧ Prediction.listsFull picture = false
  dpb : roles.dpb = true → picture.dpb.length < maxDpbSize
  previous : roles.previous = true → picture.previous = none

/-- The roles before the first one that the picture refuses. -/
def taken (roles : Roles) (handle target : Handle) (picture : Picture ι) : Roles :=
  if roles.reference ∧ (handle = target ∨ Prediction.listsFull picture) then {}
  else if roles.dpb ∧ maxDpbSize ≤ picture.dpb.length then { reference := roles.reference }
  else if roles.previous ∧ picture.previous.isSome then { roles with previous := false }
  else roles

theorem Granted.taken {roles : Roles} {handle target : Handle} {picture : Picture ι}
    (granted : roles.Granted handle target picture) : roles.taken handle target picture = roles := by
  unfold Roles.taken
  split
  case isTrue refused => simp [granted.lists refused.1] at refused
  split
  case isTrue refused =>
    have room := granted.dpb refused.1
    omega
  split
  case isTrue refused => simp [granted.previous refused.1] at refused
  rfl

theorem taken_previous {roles : Roles} {handle target : Handle} {picture : Picture ι}
    (follows : (roles.taken handle target picture).previous = true) : picture.previous = none := by
  unfold Roles.taken at follows
  split at follows
  case isTrue => cases follows
  split at follows
  case isTrue => cases follows
  split at follows
  case isTrue => cases follows
  case isFalse kept => simpa [follows] using kept

theorem eq_empty_of_count {roles : Roles} (nothing : roles.count = 0) : roles = {} := by
  obtain ⟨reference, dpb, previous⟩ := roles
  simpa [count, and_assoc] using nothing

theorem holds_append (roles : Roles) (target : Handle) (order : Nat) (picture : Picture ι) :
    (roles.append target order picture).holds = picture.holds := rfl

theorem mentions_append {roles : Roles} {window : Window ι}
    {handle : Handle} {picture : Picture ι} (found : window.find? handle = some picture)
    (previous : roles.previous = true → picture.previous = none) (target : Handle) (order : Nat)
    (other : Handle) :
    (window.adjust handle (roles.append target order)).mentions other =
      window.mentions other + if other = target then roles.count else 0 := by
  have balance := Window.mentions_adjust found (roles.append target order) other
  rw [← enter_eq_append, count_held_enter previous] at balance
  rw [← enter_eq_append]
  omega

end Roles

namespace Prediction

variable {ι : Type} {window : Window ι} {handle target : Handle} {picture named : Picture ι}

theorem addToLists_fails (found : window.find? handle = some picture)
    (refused : handle = target ∨ listsFull picture = true) (order : Nat) :
    Fails (addToLists handle target order) window .invalidReferenceState window := by
  refine (Window.fetch_runs found).bind_fails ?_
  rw [if_pos refused]
  exact fails_refuse _ _ _

theorem addToDpb_fails (found : window.find? handle = some picture)
    (full : maxDpbSize ≤ picture.dpb.length) (target : Handle) :
    Fails (addToDpb handle target) window .invalidReferenceState window := by
  refine (Window.fetch_runs found).bind_fails ?_
  rw [if_pos full]
  exact fails_refuse _ _ _

theorem setPrevious_fails (found : window.find? handle = some picture)
    (set : picture.previous.isSome = true) (target : Handle) :
    Fails (setPrevious handle target) window .invalidReferenceState window := by
  refine (Window.fetch_runs found).bind_fails ?_
  rw [if_pos set]
  exact fails_fail _ _

/-- A role is refused before anything is counted, so only the roles before it show. -/
theorem addReference_fails {roles : Roles} (found : window.find? handle = some picture)
    (foundTarget : window.find? target = some named)
    (refused : ¬roles.Granted handle target picture) :
    Fails (addReference handle target roles) window .invalidReferenceState
      (window.adjust handle
        ((roles.taken handle target picture).append target named.displayOrder)) := by
  rw [← Roles.enter_eq_append]
  refine (Window.fetch_runs foundTarget).bind_fails ((Window.fetch_runs found).bind_fails ?_)
  -- One case for each role, in the order of the checks; without a refusal all would be granted.
  unfold Roles.taken
  by_cases unlisted : roles.reference ∧ (handle = target ∨ listsFull picture)
  · rw [if_pos unlisted]
    have unchanged : window.adjust handle (Roles.enter {} target named.displayOrder) = window :=
      Window.adjust_id handle window
    rw [unchanged]
    exact (fails_when unlisted.1 (addToLists_fails found unlisted.2 _)).bind _
  have lists : roles.reference = true → handle ≠ target ∧ listsFull picture = false := by
    intro wanted
    simpa [wanted] using unlisted
  rw [if_neg unlisted]
  refine (listed_runs found lists _).bind_fails ?_
  by_cases unkept : roles.dpb ∧ maxDpbSize ≤ picture.dpb.length
  · rw [if_pos unkept]
    have foundListed := Window.find?_adjust_self found (roles.list target named.displayOrder)
    refine (fails_when unkept.1 (addToDpb_fails foundListed ?_ target)).bind _
    rw [Roles.list_dpb]
    exact unkept.2
  have dpb : roles.dpb = true → picture.dpb.length < maxDpbSize := by
    intro wanted
    simpa [wanted] using unkept
  rw [if_neg unkept]
  refine (kept_runs found dpb target _).bind_fails ?_
  by_cases unset : roles.previous ∧ picture.previous.isSome
  · rw [if_pos unset]
    have foundKept := Window.find?_adjust_self found fun picture =>
      roles.keep target (roles.list target named.displayOrder picture)
    refine (fails_when unset.1 (setPrevious_fails foundKept ?_ target)).bind _
    rw [Roles.keep_previous, Roles.list_previous]
    exact unset.2
  · exact absurd ⟨lists, dpb, fun wanted => by simpa [wanted] using unset⟩ refused

theorem addReference_absent (absent : window.find? handle = none ∨ window.find? target = none)
    (roles : Roles) :
    addReference handle target roles window = ⟨.error .invalidReferenceState, window, []⟩ := by
  unfold addReference
  cases foundTarget : window.find? target with
  | none => rw [bind_run, Action.bind, Window.fetch_missing foundTarget]
  | some named =>
      have missing : window.find? handle = none := by simpa [foundTarget] using absent
      rw [bind_silent (Window.fetch_found foundTarget), bind_run, Action.bind,
        Window.fetch_missing missing]

/-- What comes of naming a live picture in roles of another, given how it ended. -/
structure Naming (handle target : Handle) (roles : Roles) (picture named : Picture ι)
    (window : Window ι) (ending : Outcome (Window ι) Unit) : Prop where
  succeeds : ending.result = .ok () ↔ roles.Granted handle target picture
  fails : ending.result ≠ .ok () → ending.result = .error .invalidReferenceState
  names : ending.result = .ok () → ending.state =
    (window.adjust handle (roles.append target named.displayOrder)).adjust target
      (·.retain roles.count)
  counts : ending.result = .ok () → ∀ level other, ending.state.counted level other =
    window.counted level other + if other = target then roles.count else 0
  /-- The roles before the refused one stay entered. -/
  stays : ending.result ≠ .ok () → ending.state =
    window.adjust handle ((roles.taken handle target picture).append target named.displayOrder)
  /-- Nobody counts the roles that stay entered. -/
  uncounted : ending.result ≠ .ok () → ∀ level other,
    ending.state.counted level other = window.counted level other
  mentions : ∀ other, ending.state.mentions other = window.mentions other +
    if other = target then (roles.taken handle target picture).count else 0
  unchanged : ending.result ≠ .ok () →
    (ending.state = window ↔ roles.taken handle target picture = {})
  agrees : window.Agrees →
    (ending.state.Agrees ↔ ending.result = .ok () ∨ roles.taken handle target picture = {})

theorem naming_granted {roles : Roles}
    (found : window.find? handle = some picture) (foundTarget : window.find? target = some named)
    (granted : roles.Granted handle target picture) :
    Naming handle target roles picture named window (addReference handle target roles window) := by
  have runs := addReference_runs found foundTarget granted.lists granted.dpb granted.previous
  rw [Roles.enter_eq_append] at runs
  have succeeded := runs.result_eq
  obtain ⟨current, foundCurrent⟩ := Window.exists_find?_adjust foundTarget handle
    (roles.append target named.displayOrder)
  have counts : ∀ level other, (addReference handle target roles window).state.counted level other =
      window.counted level other + if other = target then roles.count else 0 := by
    intro level other
    rw [runs.state_eq, Window.counted_retain foundCurrent,
      Window.counted_adjust (Roles.holds_append roles target named.displayOrder)]
  have mentions : ∀ other, (addReference handle target roles window).state.mentions other =
      window.mentions other + if other = target then roles.count else 0 := by
    intro other
    rw [runs.state_eq, Window.mentions_retain,
      Roles.mentions_append found granted.previous]
  constructor
  case succeeds => exact ⟨fun _ => granted, fun _ => succeeded⟩
  case fails => exact fun failed => absurd succeeded failed
  case names => exact fun _ => runs.state_eq
  case counts => exact fun _ => counts
  case stays => exact fun failed => absurd succeeded failed
  case uncounted => exact fun failed => absurd succeeded failed
  case mentions => rwa [granted.taken]
  case unchanged => exact fun failed => absurd succeeded failed
  case agrees =>
    intro agrees
    refine ⟨fun _ => .inl succeeded, fun _ other member level => ?_⟩
    rw [runs.state_eq, Window.handles_adjust, Window.handles_adjust] at member
    rw [counts, mentions, agrees other member level]

theorem naming_refused {roles : Roles}
    (found : window.find? handle = some picture) (foundTarget : window.find? target = some named)
    (refused : ¬roles.Granted handle target picture) :
    Naming handle target roles picture named window (addReference handle target roles window) := by
  have failing := addReference_fails found foundTarget refused
  have failed : (addReference handle target roles window).result ≠ .ok () := by
    rw [failing.result_eq]
    exact nofun
  have uncounted : ∀ level other,
      (addReference handle target roles window).state.counted level other =
        window.counted level other := by
    intro level other
    rw [failing.state_eq, Window.counted_adjust (Roles.holds_append _ target named.displayOrder)]
  have mentions : ∀ other, (addReference handle target roles window).state.mentions other =
      window.mentions other +
        if other = target then (roles.taken handle target picture).count else 0 := by
    intro other
    rw [failing.state_eq, Roles.mentions_append found Roles.taken_previous]
  have untouched : roles.taken handle target picture = {} →
      (addReference handle target roles window).state = window := by
    intro nothing
    rw [failing.state_eq, nothing, ← Roles.enter_eq_append]
    exact Window.adjust_id handle window
  constructor
  case succeeds =>
    exact ⟨fun succeeded => absurd succeeded failed, fun granted => absurd granted refused⟩
  case fails => exact fun _ => failing.result_eq
  case names => exact fun succeeded => absurd succeeded failed
  case counts => exact fun succeeded => absurd succeeded failed
  case stays => exact fun _ => failing.state_eq
  case uncounted => exact fun _ => uncounted
  case mentions => exact mentions
  case unchanged =>
    refine fun _ => ⟨fun same => ?_, untouched⟩
    have counted := mentions target
    rw [same, if_pos rfl] at counted
    exact Roles.eq_empty_of_count (by omega)
  case agrees =>
    intro agrees
    refine ⟨fun later => .inr ?_, ?_⟩
    · have live := Window.mem_handles_of_find? foundTarget
      have before := agrees target live .direct
      have after := later target (by rwa [failing.state_eq, Window.handles_adjust]) .direct
      rw [uncounted, mentions, if_pos rfl] at after
      exact Roles.eq_empty_of_count (by omega)
    · rintro (succeeded | nothing)
      · exact absurd succeeded failed
      · rwa [untouched nothing]

/-- Roles are granted one by one: the action has entered all and counted them, or it has entered
those before the first refused one and counted none. -/
theorem addReference_role_by_role (handle target : Handle)
    (roles : Roles) :
    (window.find? handle = none ∨ window.find? target = none →
      addReference handle target roles window = ⟨.error .invalidReferenceState, window, []⟩) ∧
    ∀ picture named, window.find? handle = some picture → window.find? target = some named →
      Naming handle target roles picture named window
        (addReference handle target roles window) := by
  refine ⟨fun absent => addReference_absent absent roles, ?_⟩
  intro picture named found foundTarget
  by_cases granted : roles.Granted handle target picture
  · exact naming_granted found foundTarget granted
  · exact naming_refused found foundTarget granted

/-- Two pictures, the second of which already follows the first one. -/
def followed : Window Unit :=
  let first := (Window.enter (.ofFrame 0 {} true ()) {}).2
  let both := (first.enter (.ofFrame 1 {} false ())).2
  (addReference ⟨1, 0⟩ ⟨0, 0⟩ { previous := true } both).state

theorem followed_agrees : followed.Agrees := by
  intro handle member level
  have handles : followed.handles = [⟨0, 0⟩, ⟨1, 0⟩] := rfl
  rw [handles, List.mem_pair] at member
  rcases member with rfl | rfl <;> cases level <;> rfl

theorem addReference_role_by_role_followed :
    followed.handles.Nodup ∧ ∃ first second,
      followed.find? ⟨0, 0⟩ = some first ∧ followed.find? ⟨1, 0⟩ = some second ∧
      Naming ⟨1, 0⟩ ⟨0, 0⟩ { reference := true, dpb := true } second first followed
        (addReference ⟨1, 0⟩ ⟨0, 0⟩ { reference := true, dpb := true } followed) ∧
      Naming ⟨1, 0⟩ ⟨0, 0⟩ { dpb := true, previous := true } second first followed
        (addReference ⟨1, 0⟩ ⟨0, 0⟩ { dpb := true, previous := true } followed) ∧
      Roles.taken { dpb := true, previous := true } ⟨1, 0⟩ ⟨0, 0⟩ second = { dpb := true } := by
  exact ⟨followed.handles_nodup, _, _, rfl, rfl,
    (addReference_role_by_role ⟨1, 0⟩ ⟨0, 0⟩ _).2 _ _ rfl rfl,
    (addReference_role_by_role ⟨1, 0⟩ ⟨0, 0⟩ _).2 _ _ rfl rfl, by decide⟩

theorem addReference_leaves_role :
    ¬∀ (handle target : Handle) (roles : Roles) (window : Window Unit),
      window.handles.Nodup → window.Agrees →
      (addReference handle target roles window).result = .ok () ∨
        (addReference handle target roles window).state = window := by
  intro whole
  have ended := whole ⟨1, 0⟩ ⟨0, 0⟩ { dpb := true, previous := true } followed (by decide)
    followed_agrees
  revert ended
  decide

end Prediction

end VideoSchedule

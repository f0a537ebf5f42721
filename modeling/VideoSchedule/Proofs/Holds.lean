import VideoSchedule.Prediction
import VideoSchedule.Proofs.Execution
import VideoSchedule.Proofs.Window

/-!
Counts of holds. `Window.claims` lists every hold that live pictures have not given up;
`Window.Exact` says that each picture counts just these holds, and at the direct level those of the
past pictures too. Naming a picture and taking holds away keep the counts exact.
-/

namespace VideoSchedule

open VideoSchedule.Action

def Picture.claims {ι : Type} (level : HoldLevel) (picture : Picture ι) : List Handle :=
  if picture.released.get level then [] else picture.held

theorem Picture.mem_claims_iff {ι : Type} {level : HoldLevel} {picture : Picture ι}
    {target : Handle} :
    target ∈ picture.claims level ↔ picture.released.get level = false ∧ target ∈ picture.held := by
  unfold claims
  split <;> simp_all

namespace Window

variable {ι : Type} {level : HoldLevel}

/-- Every hold that live pictures have not given up at a level. -/
def claims (level : HoldLevel) (window : Window ι) : List Handle :=
  window.entries.flatMap fun entry => entry.2.claims level

/-- Every live picture counts the claims on it, and those of `extra`. -/
def Balanced (level : HoldLevel) (extra : List Handle) (window : Window ι) : Prop :=
  ∀ handle picture, window.find? handle = some picture →
    picture.holds.get level = (window.claims level).count handle + extra.count handle

def outside (recent : List Handle) : HoldLevel → List Handle
  | .direct => recent
  | .indirect => []

def Exact (recent : List Handle) (window : Window ι) : Prop :=
  ∀ level, window.Balanced level (outside recent level)

theorem mem_claims_iff {window : Window ι} {target : Handle} :
    target ∈ window.claims level ↔
      ∃ handle picture, window.find? handle = some picture ∧ target ∈ picture.claims level := by
  simp only [claims, List.mem_flatMap]
  constructor
  · rintro ⟨⟨handle, picture⟩, member, claimed⟩
    exact ⟨handle, picture, find?_of_mem_entries member, claimed⟩
  · rintro ⟨handle, picture, found, claimed⟩
    exact ⟨(handle, picture), mem_entries_of_find? found, claimed⟩

theorem claims_each {window : Window ι} {change : Handle → Picture ι → Picture ι}
    (same : ∀ handle picture, (change handle picture).claims level = picture.claims level) :
    (window.each change).claims level = window.claims level := by
  simp [claims, entries_each, List.flatMap_map, same]

theorem claims_eq_of_bare_eq {first second : Window ι} (same : first.bare = second.bare) :
    first.claims level = second.claims level := by
  have erased : first.bare.claims level = second.bare.claims level := by rw [same]
  have unchanged : ∀ window : Window ι, window.bare.claims level = window.claims level :=
    fun _ => claims_each fun _ _ => rfl
  rwa [unchanged, unchanged] at erased

theorem Around.count_claims {window : Window ι} {handle : Handle} {picture : Picture ι}
    {front back : List (Handle × Picture ι)} (around : window.Around handle picture front back)
    (level : HoldLevel) (target : Handle) :
    (window.claims level).count target = (picture.claims level).count target +
      ((front ++ back).flatMap fun entry => entry.2.claims level).count target := by
  simp only [claims, around.entries, List.flatMap_append, List.flatMap_cons, List.count_append]
  omega

theorem count_claims_adjust (level : HoldLevel) {window : Window ι}
    {handle : Handle} {picture : Picture ι} (found : window.find? handle = some picture)
    (change : Picture ι → Picture ι) (target : Handle) :
    ((window.adjust handle change).claims level).count target +
        (picture.claims level).count target =
      (window.claims level).count target + ((change picture).claims level).count target := by
  obtain ⟨front, back, around⟩ := exists_around found
  rw [around.count_claims, (around.adjust change).count_claims]
  omega

/-! Naming a picture. -/

theorem Balanced.name {window : Window ι} {extra : List Handle}
    (balanced : window.Balanced level extra)
    {handle target : Handle} {picture : Picture ι} {count : Nat} {change : Picture ι → Picture ι}
    (found : window.find? handle = some picture)
    (keeps : (change picture).holds = picture.holds)
    (adds : ∀ other, ((change picture).claims level).count other =
      (picture.claims level).count other + if other = target then count else 0) :
    ((window.adjust handle change).adjust target (·.retain count)).Balanced level extra := by
  have retained : ((window.adjust handle change).adjust target (·.retain count)).claims level =
      (window.adjust handle change).claims level := by
    rw [adjust_eq_each target]
    apply claims_each
    intro other picture
    split <;> rfl
  intro other current there
  have counted := count_claims_adjust level found change other
  rw [adds] at counted
  rw [retained]
  have before : ∃ old, window.find? other = some old ∧
      current.holds.get level = old.holds.get level + if other = target then count else 0 := by
    rw [find?_adjust, find?_adjust] at there
    by_cases self : other = handle
    · subst self
      refine ⟨picture, found, ?_⟩
      rw [if_pos rfl, found] at there
      by_cases named : other = target
      · rw [if_pos named] at there
        cases there
        cases level <;> simp [named, Picture.retain, PerLevel.get, keeps]
      · rw [if_neg named] at there
        cases there
        simp [named, keeps]
    · by_cases named : other = target
      · subst named
        rw [if_pos rfl, if_neg self, Option.map_eq_some_iff] at there
        obtain ⟨old, foundOld, rfl⟩ := there
        refine ⟨old, foundOld, ?_⟩
        cases level <;> simp [Picture.retain, PerLevel.get]
      · rw [if_neg named, if_neg self] at there
        exact ⟨current, there, by simp [named]⟩
  obtain ⟨old, foundOld, holds⟩ := before
  have exact := balanced other old foundOld
  omega

/-! Taking holds away. -/

def lower (level : HoldLevel) (targets : List Handle) (window : Window ι) : Window ι :=
  window.each fun handle picture =>
    { picture with
      holds := picture.holds.set level (picture.holds.get level - targets.count handle) }

theorem bare_lower (targets : List Handle) (window : Window ι) :
    (window.lower level targets).bare = window.bare := by
  rw [lower, bare, bare, each_each]
  rfl

theorem claims_lower (other : HoldLevel) (targets : List Handle) (window : Window ι) :
    (window.lower level targets).claims other = window.claims other :=
  claims_eq_of_bare_eq (bare_lower targets window)

theorem handles_lower (targets : List Handle) (window : Window ι) :
    (window.lower level targets).handles = window.handles :=
  handles_each _ _

theorem lower_nil (window : Window ι) : window.lower level [] = window := by
  refine Eq.trans (each_congr ?_) (each_id window)
  intro handle picture _
  cases level <;> rfl

theorem lower_lower (first second : List Handle) (window : Window ι) :
    (window.lower level first).lower level second = window.lower level (first ++ second) := by
  rw [lower, lower, lower, each_each]
  apply each_congr
  intro handle picture _
  simp only [List.count_append, PerLevel.get_set_self, Nat.sub_sub]
  cases level <;> rfl

theorem adjust_unhold_eq_lower (handle : Handle) (window : Window ι) :
    window.adjust handle (·.unhold level) = window.lower level [handle] := by
  rw [adjust_eq_each, lower]
  apply each_congr
  intro other picture _
  by_cases same : other = handle
  · simp [same, Picture.unhold]
  · have apart : (handle == other) = false := beq_eq_false_iff_ne.mpr (Ne.symm same)
    cases level <;> simp [same, apart, List.count_cons, PerLevel.get, PerLevel.set]

theorem find?_lower (targets : List Handle) (window : Window ι) (handle : Handle) :
    (window.lower level targets).find? handle =
      (window.find? handle).map fun picture =>
        { picture with
          holds := picture.holds.set level (picture.holds.get level - targets.count handle) } :=
  find?_each _ _ _

theorem Balanced.lower {window : Window ι} {targets extra : List Handle}
    (balanced : window.Balanced level (targets ++ extra)) :
    (window.lower level targets).Balanced level extra := by
  intro handle picture found
  rw [find?_lower, Option.map_eq_some_iff] at found
  obtain ⟨old, foundOld, rfl⟩ := found
  have exact := balanced handle old foundOld
  rw [List.count_append] at exact
  rw [claims_lower, PerLevel.get_set_self]
  omega

theorem Balanced.lower_other {window : Window ι} {other : HoldLevel} {extra : List Handle}
    (balanced : window.Balanced other extra) (different : other ≠ level) (targets : List Handle) :
    (window.lower level targets).Balanced other extra := by
  intro handle picture found
  rw [find?_lower, Option.map_eq_some_iff] at found
  obtain ⟨old, foundOld, rfl⟩ := found
  rw [claims_lower, PerLevel.get_set_of_ne _ _ different]
  exact balanced handle old foundOld

/-! Runs. -/

theorem fetch_runs {window : Window ι} {handle : Handle} {picture : Picture ι}
    (found : window.find? handle = some picture) :
    Runs (fetch handle) window (.ok picture) window :=
  .of_eq (fetch_found found)

theorem remove_runs {window : Window ι} {handle : Handle} {picture : Picture ι}
    (found : window.find? handle = some picture) :
    Runs (remove handle) window (.ok picture) (window.erase handle) :=
  .of_eq (remove_found found)

theorem alter_runs {window : Window ι} {handle : Handle} {picture : Picture ι}
    (found : window.find? handle = some picture) (change : Picture ι → Picture ι) :
    Runs (alter handle change) window (.ok ()) (window.adjust handle change) :=
  .of_eq (alter_found found change)

theorem unhold_runs {window : Window ι} {handle : Handle} {picture : Picture ι}
    (found : window.find? handle = some picture) (held : 0 < picture.holds.get level) :
    Runs (unhold level handle) window (.ok ()) (window.lower level [handle]) := by
  refine (fetch_runs found).bind ?_
  rw [if_neg (by omega), ← adjust_unhold_eq_lower]
  exact runs_modify _ _

theorem forM_unhold_runs (targets : List Handle) {window : Window ι}
    (covered : ∀ target ∈ targets, ∃ picture, window.find? target = some picture ∧
      targets.count target ≤ picture.holds.get level) :
    Runs (targets.forM (unhold level)) window (.ok ()) (window.lower level targets) := by
  induction targets generalizing window with
  | nil =>
      rw [lower_nil]
      exact runs_forM_nil _ window
  | cons target rest ih =>
      obtain ⟨picture, found, enough⟩ := covered target (List.mem_cons_self ..)
      rw [List.count_cons_self] at enough
      refine (unhold_runs found (by omega)).forM_cons ?_
      rw [show target :: rest = [target] ++ rest from rfl, ← lower_lower]
      apply ih
      intro other member
      obtain ⟨old, foundOld, enoughOld⟩ := covered other (List.mem_cons_of_mem _ member)
      refine ⟨_, by rw [find?_lower, foundOld]; rfl, ?_⟩
      rw [PerLevel.get_set_self]
      rw [List.count_cons] at enoughOld
      simp only [List.count_cons, List.count_nil]
      omega

end Window

/-! Naming a picture in several roles. -/

namespace Roles

variable {ι : Type}

def list (roles : Roles) (target : Handle) (targetOrder : Nat) (picture : Picture ι) : Picture ι :=
  if roles.reference then Prediction.enterList target targetOrder picture else picture

def keep (roles : Roles) (target : Handle) (picture : Picture ι) : Picture ι :=
  if roles.dpb then { picture with dpb := picture.dpb ++ [target] } else picture

def follow (roles : Roles) (target : Handle) (picture : Picture ι) : Picture ι :=
  if roles.previous then { picture with previous := some target } else picture

def enter (roles : Roles) (target : Handle) (targetOrder : Nat) (picture : Picture ι) :
    Picture ι :=
  roles.follow target (roles.keep target (roles.list target targetOrder picture))

theorem list_dpb (roles : Roles) (target : Handle) (order : Nat) (picture : Picture ι) :
    (roles.list target order picture).dpb = picture.dpb := by
  unfold list Prediction.enterList
  split
  · split <;> rfl
  · rfl

theorem list_previous (roles : Roles) (target : Handle) (order : Nat) (picture : Picture ι) :
    (roles.list target order picture).previous = picture.previous := by
  unfold list Prediction.enterList
  split
  · split <;> rfl
  · rfl

theorem keep_previous (roles : Roles) (target : Handle) (picture : Picture ι) :
    (roles.keep target picture).previous = picture.previous := by
  unfold keep
  split <;> rfl

theorem holds_enter (roles : Roles) (target : Handle) (order : Nat) (picture : Picture ι) :
    (roles.enter target order picture).holds = picture.holds := by
  simp only [enter, follow, keep, list, Prediction.enterList]
  split <;> split <;> split <;> (try split) <;> rfl

theorem released_enter (roles : Roles) (target : Handle) (order : Nat) (picture : Picture ι) :
    (roles.enter target order picture).released = picture.released := by
  simp only [enter, follow, keep, list, Prediction.enterList]
  split <;> split <;> split <;> (try split) <;> rfl

theorem count_held_list (roles : Roles) (target : Handle) (order : Nat) (picture : Picture ι)
    (other : Handle) :
    (roles.list target order picture).held.count other =
      picture.held.count other + if other = target then roles.reference.toNat else 0 := by
  cases wanted : roles.reference with
  | false => simp [list, wanted]
  | true =>
      simp only [list, wanted, if_true, Prediction.enterList, Bool.toNat_true]
      split <;> simp only [Picture.held, List.count_append, List.count_singleton, beq_iff_eq,
        @eq_comm _ other] <;> omega

theorem count_held_keep (roles : Roles) (target : Handle) (picture : Picture ι) (other : Handle) :
    (roles.keep target picture).held.count other =
      picture.held.count other + if other = target then roles.dpb.toNat else 0 := by
  cases kept : roles.dpb with
  | false => simp [keep, kept]
  | true =>
      simp only [keep, kept, if_true, Picture.held, List.count_append, List.count_singleton,
        beq_iff_eq, @eq_comm _ other, Bool.toNat_true]
      omega

theorem count_held_follow {roles : Roles} {picture : Picture ι}
    (previous : roles.previous = true → picture.previous = none) (target other : Handle) :
    (roles.follow target picture).held.count other =
      picture.held.count other + if other = target then roles.previous.toNat else 0 := by
  cases follows : roles.previous with
  | false => simp [follow, follows]
  | true =>
      simp only [follow, follows, if_true, Picture.held, previous follows, List.count_append,
        Option.toList_some, Option.toList_none, List.count_nil, List.count_singleton, beq_iff_eq,
        @eq_comm _ other, Bool.toNat_true]
      omega

theorem count_held_enter {roles : Roles} {picture : Picture ι}
    (previous : roles.previous = true → picture.previous = none) (target : Handle) (order : Nat)
    (other : Handle) :
    (roles.enter target order picture).held.count other =
      picture.held.count other + if other = target then roles.count else 0 := by
  have free : roles.previous = true →
      (roles.keep target (roles.list target order picture)).previous = none := by
    rw [keep_previous, list_previous]
    exact previous
  rw [enter, count_held_follow free, count_held_keep, count_held_list]
  by_cases same : other = target
  · simp only [same, if_true, count]
    omega
  · simp only [same, if_false]

end Roles

namespace Prediction

variable {ι : Type}

theorem addToLists_runs {window : Window ι} {handle target : Handle} {picture : Picture ι}
    (found : window.find? handle = some picture) (different : handle ≠ target)
    (room : listsFull picture = false) (order : Nat) :
    Runs (addToLists handle target order) window (.ok ())
      (window.adjust handle (enterList target order)) := by
  refine (Window.fetch_runs found).bind ?_
  rw [if_neg (by simp [different, room])]
  exact Window.alter_runs found _

theorem addToDpb_runs {window : Window ι} {handle : Handle} {picture : Picture ι}
    (found : window.find? handle = some picture) (room : picture.dpb.length < maxDpbSize)
    (target : Handle) :
    Runs (addToDpb handle target) window (.ok ())
      (window.adjust handle fun picture => { picture with dpb := picture.dpb ++ [target] }) := by
  refine (Window.fetch_runs found).bind ?_
  rw [if_neg (by omega)]
  exact Window.alter_runs found _

theorem setPrevious_runs {window : Window ι} {handle : Handle} {picture : Picture ι}
    (found : window.find? handle = some picture) (none : picture.previous = none)
    (target : Handle) :
    Runs (setPrevious handle target) window (.ok ())
      (window.adjust handle ({ · with previous := some target })) := by
  refine (Window.fetch_runs found).bind ?_
  rw [none]
  exact Window.alter_runs found _

theorem when_runs {window : Window ι} (handle : Handle) {condition : Bool}
    {action : Action (Window ι) Unit} {change : Picture ι → Picture ι}
    (runs : condition = true → Runs action window (.ok ()) (window.adjust handle change)) :
    Runs (when condition action) window (.ok ())
      (window.adjust handle fun picture => if condition then change picture else picture) := by
  cases condition with
  | true => exact runs_when_true rfl (runs rfl)
  | false =>
      have unchanged := Window.adjust_id handle window
      simp only [Bool.false_eq_true, if_false]
      rw [unchanged]
      exact runs_when_false (by simp) window

theorem listed_runs {window : Window ι} {handle target : Handle} {picture : Picture ι}
    {roles : Roles} (found : window.find? handle = some picture)
    (lists : roles.reference = true → handle ≠ target ∧ listsFull picture = false) (order : Nat) :
    Runs (when roles.reference (addToLists handle target order)) window (.ok ())
      (window.adjust handle (roles.list target order)) :=
  when_runs handle fun wanted => addToLists_runs found (lists wanted).1 (lists wanted).2 order

theorem kept_runs {window : Window ι} {handle : Handle} {picture : Picture ι} {roles : Roles}
    (found : window.find? handle = some picture)
    (dpb : roles.dpb = true → picture.dpb.length < maxDpbSize) (target : Handle) (order : Nat) :
    Runs (when roles.dpb (addToDpb handle target)) (window.adjust handle (roles.list target order))
      (.ok ())
      (window.adjust handle fun picture => roles.keep target (roles.list target order picture)) := by
  have foundListed := Window.find?_adjust_self found (roles.list target order)
  have room : roles.dpb = true → (roles.list target order picture).dpb.length < maxDpbSize := by
    rw [Roles.list_dpb]
    exact dpb
  have runs := when_runs handle fun wanted => addToDpb_runs foundListed (room wanted) target
  rwa [Window.adjust_adjust] at runs

theorem addReference_runs {window : Window ι} {handle target : Handle} {picture named : Picture ι}
    {roles : Roles} (found : window.find? handle = some picture)
    (foundTarget : window.find? target = some named)
    (lists : roles.reference = true → handle ≠ target ∧ listsFull picture = false)
    (dpb : roles.dpb = true → picture.dpb.length < maxDpbSize)
    (previous : roles.previous = true → picture.previous = none) :
    Runs (addReference handle target roles) window (.ok ())
      ((window.adjust handle (roles.enter target named.displayOrder)).adjust target
        (·.retain roles.count)) := by
  have foundKept := Window.find?_adjust_self found fun picture =>
    roles.keep target (roles.list target named.displayOrder picture)
  refine (Window.fetch_runs foundTarget).bind ((Window.fetch_runs found).bind ?_)
  refine (listed_runs found lists _).bind ((kept_runs found dpb target _).bind ?_)
  refine (when_runs handle fun wanted => setPrevious_runs foundKept ?_ target).bind ?_
  · rw [Roles.keep_previous, Roles.list_previous]
    exact previous wanted
  rw [Window.adjust_adjust]
  obtain ⟨current, foundCurrent⟩ := Window.exists_find?_adjust foundTarget handle
    (roles.enter target named.displayOrder)
  exact Window.alter_runs foundCurrent _

end Prediction

theorem Window.Exact.name {ι : Type} {window : Window ι} {recent : List Handle}
    (exact : window.Exact recent) {handle target : Handle}
    {picture : Picture ι} {roles : Roles} (found : window.find? handle = some picture)
    (holding : picture.released = ⟨false, false⟩)
    (previous : roles.previous = true → picture.previous = none) (order : Nat) :
    ((window.adjust handle (roles.enter target order)).adjust target
      (·.retain roles.count)).Exact recent := by
  intro level
  refine (exact level).name found (Roles.holds_enter ..) ?_
  intro other
  have released : ∀ level, picture.released.get level = false := by
    intro level
    rw [holding]
    cases level <;> rfl
  simp only [Picture.claims, Roles.released_enter, released, Bool.false_eq_true, if_false]
  exact Roles.count_held_enter previous target order other

end VideoSchedule

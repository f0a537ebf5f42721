import VideoSchedule.Retirement
import VideoSchedule.Proofs.Arrangement

/-!
Retirement succeeds on a tidy window and leaves it tidy. Giving up holds moves counts and claims
alike; a picture that nobody claims indirectly is not held directly either, so by the third pass it
has given up everything and may leave.
-/

namespace VideoSchedule

open VideoSchedule.Action

theorem PerLevel.set_eq_self {α : Type} {values : PerLevel α} {level : HoldLevel} {value : α}
    (same : values.get level = value) : values.set level value = values := by
  subst same
  cases values
  cases level <;> rfl

def Picture.release {ι : Type} (level : HoldLevel) (picture : Picture ι) : Picture ι :=
  { picture with released := picture.released.set level true }

def Picture.core {ι : Type} (picture : Picture ι) : Picture ι :=
  { picture with holds := ⟨0, 0⟩, released := ⟨false, false⟩ }

structure Picture.Stays {ι : Type} (before after : Picture ι) : Prop where
  core : after.core = before.core
  incomplete : before.complete = false → after.released = before.released

namespace Picture.Stays

variable {ι : Type} {before middle after : Picture ι}

theorem complete (stays : before.Stays after) : after.complete = before.complete :=
  (congrArg Picture.complete stays.core :)

theorem issued (stays : before.Stays after) : after.issued = before.issued :=
  (congrArg Picture.issued stays.core :)

theorem held (stays : before.Stays after) : after.held = before.held :=
  (congrArg Picture.held stays.core :)

theorem trans (first : before.Stays middle) (second : middle.Stays after) : before.Stays after := by
  refine ⟨second.core.trans first.core, fun incomplete => ?_⟩
  rw [second.incomplete (first.complete.trans incomplete), first.incomplete incomplete]

theorem continues (stays : before.Stays after) : before.Continues after :=
  ⟨(congrArg Picture.layout stays.core :), fun issued => stays.issued.trans issued⟩

theorem fresh (stays : before.Stays after) (fresh : before.Fresh)
    (incomplete : before.complete = false) : after.Fresh where
  past := (congrArg Picture.past stays.core :).trans fresh.past
  future := (congrArg Picture.future stays.core :).trans fresh.future
  dpb := (congrArg Picture.dpb stays.core :).trans fresh.dpb
  previous := (congrArg Picture.previous stays.core :).trans fresh.previous
  released := (stays.incomplete incomplete).trans fresh.released
  type := (congrArg Picture.type stays.core :).trans fresh.type
  waiting := stays.issued.trans fresh.waiting

end Picture.Stays

namespace Window

variable {ι : Type} {window before after : Window ι} {recent : List Handle} {level : HoldLevel}

def release (level : HoldLevel) (targets : List Handle) (window : Window ι) : Window ι :=
  window.each fun handle picture =>
    if handle ∈ targets then picture.release level else picture

theorem find?_release (targets : List Handle) (window : Window ι) (handle : Handle) :
    (window.release level targets).find? handle = (window.find? handle).map fun picture =>
      if handle ∈ targets then picture.release level else picture :=
  find?_each _ _ _

theorem release_nil (window : Window ι) : window.release level [] = window := by
  simpa [release] using each_id window

structure Passed (level : HoldLevel) (targets : List Handle) (before after : Window ι) : Prop where
  bare : after.bare = (before.release level targets).bare

namespace Passed

variable {targets : List Handle}

theorem handles (passed : Passed level targets before after) : after.handles = before.handles :=
  (handles_eq_of_plain_eq (plain_eq_of_bare_eq passed.bare)).trans (handles_each _ _)

theorem find? (passed : Passed level targets before after) {handle : Handle} {picture : Picture ι}
    (found : before.find? handle = some picture) : ∃ holds, after.find? handle =
      some ((if handle ∈ targets then picture.release level else picture).withHolds holds) := by
  have released : (before.release level targets).find? handle =
      some (if handle ∈ targets then picture.release level else picture) := by
    rw [find?_release, found]
    rfl
  obtain ⟨other, foundOther, same⟩ := find?_of_map_eq (find?_bare_eq passed.bare handle) released
  obtain ⟨holds, rfl⟩ := Picture.exists_of_bare_eq same
  exact ⟨holds, foundOther⟩

theorem back (passed : Passed level targets before after) {handle : Handle} {other : Picture ι}
    (found : after.find? handle = some other) : ∃ picture holds,
      before.find? handle = some picture ∧
        other = (if handle ∈ targets then picture.release level else picture).withHolds holds := by
  have live := mem_handles_of_find? found
  rw [passed.handles] at live
  obtain ⟨picture, foundBefore⟩ := exists_of_mem_handles live
  obtain ⟨holds, foundAfter⟩ := passed.find? foundBefore
  exact ⟨picture, holds, foundBefore, find?_unique found foundAfter⟩

theorem trans {more : List Handle} {middle : Window ι} (first : Passed level targets before middle)
    (second : Passed level more middle after) : Passed level (targets ++ more) before after := by
  constructor
  rw [second.bare]
  have erased : ∀ window : Window ι, (window.release level more).bare =
      window.bare.release level more := by
    intro window
    simp only [release, Window.bare, each_each]
    refine each_congr fun handle picture _ => ?_
    split <;> rfl
  rw [erased, first.bare, ← erased]
  simp only [release, each_each]
  refine bare_each_of_bare fun handle picture _ => ?_
  by_cases early : handle ∈ targets <;> by_cases late : handle ∈ more <;>
    cases level <;> simp [early, late, Picture.release, PerLevel.set]

theorem cores (passed : Passed level targets before after) :
    after.pictures.map Picture.core = before.pictures.map Picture.core := by
  rw [pictures_map_eq_of_bare_eq passed.bare Picture.core fun _ => rfl]
  rw [release, pictures_each, pictures, List.map_map, List.map_map]
  refine List.map_congr_left fun entry _ => ?_
  simp only [Function.comp]
  split <;> rfl

theorem stays (passed : Passed level targets before after) {handle : Handle}
    {picture other : Picture ι} (found : before.find? handle = some picture)
    (foundAfter : after.find? handle = some other)
    (complete : handle ∈ targets → picture.complete = true) : picture.Stays other := by
  obtain ⟨holds, foundSame⟩ := passed.find? found
  rw [find?_unique foundAfter foundSame]
  by_cases member : handle ∈ targets
  · rw [if_pos member]
    refine ⟨rfl, fun incomplete => ?_⟩
    cases (complete member).symm.trans incomplete
  · rw [if_neg member]
    exact ⟨rfl, fun _ => rfl⟩

theorem released (passed : Passed level targets before after) {handle : Handle}
    {picture other : Picture ι} (found : before.find? handle = some picture)
    (foundAfter : after.find? handle = some other) : other.released =
      if handle ∈ targets then picture.released.set level true else picture.released := by
  obtain ⟨holds, foundSame⟩ := passed.find? found
  rw [find?_unique foundAfter foundSame]
  split <;> rfl

theorem claims_other (passed : Passed level targets before after) {other : HoldLevel}
    (different : other ≠ level) : after.claims other = before.claims other := by
  rw [claims_eq_of_bare_eq passed.bare, release]
  apply claims_each
  intro handle picture
  split
  · simp only [Picture.claims, Picture.release, PerLevel.get_set_of_ne _ _ different]
    rfl
  · rfl

end Passed

theorem claims_release (picture : Picture ι) : (picture.release level).claims level = [] := by
  simp [Picture.claims, Picture.release, PerLevel.get_set_self]

theorem count_claims_release (level : HoldLevel) {handle : Handle}
    {picture : Picture ι} (found : window.find? handle = some picture) (target : Handle) :
    ((window.adjust handle (·.release level)).claims level).count target +
        (picture.claims level).count target = (window.claims level).count target := by
  have counted := count_claims_adjust level found (·.release level) target
  rw [claims_release] at counted
  simpa using counted

def giveUp (level : HoldLevel) (handle : Handle) (picture : Picture ι) (window : Window ι) :
    Window ι :=
  (window.lower level picture.held).adjust handle (·.release level)

theorem passed_giveUp (handle : Handle) (picture : Picture ι) (window : Window ι) :
    Passed level [handle] window (window.giveUp level handle picture) := by
  constructor
  rw [giveUp, adjust_eq_each, lower, each_each, release]
  refine bare_each_of_bare fun other current _ => ?_
  simp only [List.mem_singleton]
  split <;> rfl

theorem exact_giveUp (accounted : window.Exact recent) {handle : Handle} {picture : Picture ι}
    (found : window.find? handle = some picture) (holding : picture.released.get level = false) :
    (window.giveUp level handle picture).Exact recent := by
  have passed : Passed level [handle] window (window.giveUp level handle picture) :=
    passed_giveUp handle picture window
  intro other target current foundCurrent
  have lowered : ∃ old, window.find? target = some old ∧ current.holds.get other =
      if other = level then old.holds.get level - picture.held.count target
        else old.holds.get other := by
    rw [giveUp, find?_adjust, find?_lower] at foundCurrent
    obtain ⟨old, foundOld⟩ : ∃ old, window.find? target = some old := by
      cases foundOld : window.find? target with
      | none => simp [foundOld] at foundCurrent
      | some old => exact ⟨old, rfl⟩
    refine ⟨old, foundOld, ?_⟩
    simp only [foundOld, Option.map_some] at foundCurrent
    by_cases same : other = level
    · subst same
      split at foundCurrent <;> cases foundCurrent <;>
        simp [Picture.release, PerLevel.get_set_self]
    · split at foundCurrent <;> cases foundCurrent <;>
        simp [Picture.release, PerLevel.get_set_of_ne _ _ same, same]
  obtain ⟨old, foundOld, holds⟩ := lowered
  have exact := accounted other target old foundOld
  by_cases same : other = level
  · subst same
    rw [if_pos rfl] at holds
    have claimsEq : (window.giveUp other handle picture).claims other =
        (window.adjust handle (·.release other)).claims other := by
      have viaRelease : (window.giveUp other handle picture).claims other =
          (window.release other [handle]).claims other := claims_eq_of_bare_eq passed.bare
      rw [viaRelease, release, adjust_eq_each]
      simp only [List.mem_singleton]
    have counted := count_claims_release other found target
    have heldEq : picture.claims other = picture.held := by simp [Picture.claims, holding]
    rw [heldEq] at counted
    rw [claimsEq]
    omega
  · rw [if_neg same] at holds
    rw [passed.claims_other same, holds]
    exact exact

theorem passed_of_released {handle : Handle}
    {picture : Picture ι} (found : window.find? handle = some picture)
    (released : picture.released.get level = true) : Passed level [handle] window window := by
  constructor
  rw [release]
  refine (congrArg Window.bare (each_id window)).symm.trans (bare_each_of_bare ?_)
  intro other current member
  by_cases same : other = handle
  · subst same
    have foundCurrent := find?_of_mem_entries member
    cases find?_unique found foundCurrent
    simp [Picture.release, PerLevel.set_eq_self released]
  · simp [same]

/-- A complete picture that has given up its direct holds before the indirect ones. -/
def Ripe (level : HoldLevel) (picture : Picture ι) : Prop :=
  picture.complete = true ∧ (level = .indirect → picture.released.direct = true)

theorem Tidy.passed (tidy : before.Tidy recent) {handle : Handle} {picture : Picture ι}
    (found : before.find? handle = some picture) (ripe : Ripe level picture)
    (passed : Passed level [handle] before after) (exact : after.Exact recent) :
    after.Tidy recent := by
  have original : ∀ key current, after.find? key = some current → ∃ old,
      before.find? key = some old ∧ current.issued = old.issued ∧
        current.complete = old.complete ∧ current.held = old.held ∧
        current.released = if key = handle then old.released.set level true else old.released := by
    intro key current foundCurrent
    obtain ⟨old, holds, foundOld, rfl⟩ := passed.back foundCurrent
    refine ⟨old, foundOld, ?_⟩
    by_cases here : key = handle
    · rw [if_pos (by simpa using here), if_pos here]
      exact ⟨rfl, rfl, rfl, rfl⟩
    · rw [if_neg (by simpa using here), if_neg here]
      exact ⟨rfl, rfl, rfl, rfl⟩
  constructor
  · exact exact
  · intro key current foundCurrent
    obtain ⟨old, foundOld, issuedEq, completeEq, _, releasedEq⟩ := original key current foundCurrent
    have consistent := tidy.consistent key old foundOld
    by_cases here : key = handle
    · subst here
      cases find?_unique found foundOld
      rw [if_pos rfl] at releasedEq
      refine ⟨?_, ?_, ?_⟩
      · rw [issuedEq, completeEq]
        exact consistent.issued
      · rw [completeEq]
        exact fun _ => ripe.1
      · rw [releasedEq]
        cases level with
        | direct => simp [PerLevel.set]
        | indirect => simpa [PerLevel.set] using ripe.2 rfl
    · rw [if_neg here] at releasedEq
      exact ⟨by rw [issuedEq, completeEq]; exact consistent.issued,
        by rw [releasedEq, completeEq]; exact consistent.complete,
        by rw [releasedEq]; exact consistent.direct⟩
  · intro target claimed
    obtain ⟨key, current, foundCurrent, claims⟩ := mem_claims_iff.mp claimed
    obtain ⟨old, foundOld, _, _, heldEq, releasedEq⟩ := original key current foundCurrent
    obtain ⟨holding, member⟩ := Picture.mem_claims_iff.mp claims
    rw [passed.handles]
    rw [heldEq] at member
    refine tidy.held_live foundOld ?_ target member
    rw [releasedEq] at holding
    by_cases here : key = handle
    · cases level <;> simp_all [PerLevel.get, PerLevel.set]
    · simpa [here, PerLevel.get] using holding

end Window

namespace Retirement

open Window

variable {ι : Type} {window : Window ι} {recent : List Handle} {level : HoldLevel}

theorem releaseHeld_ok (tidy : window.Tidy recent) {handle : Handle} {picture : Picture ι}
    (found : window.find? handle = some picture) (ripe : Ripe level picture)
    (follows : picture.type = .idr ∨ picture.previous.isSome = true) :
    ∃ after, Runs (releaseHeld level handle) window (.ok ()) after ∧ after.Tidy recent ∧
      Passed level [handle] window after := by
  cases released : picture.released.get level with
  | true =>
      refine ⟨window, (fetch_runs found).bind ?_, tidy,
        passed_of_released found released⟩
      rw [if_pos released]
      exact runs_pure _ _
  | false =>
      have passed : Passed level [handle] window (window.giveUp level handle picture) :=
        passed_giveUp handle picture window
      refine ⟨window.giveUp level handle picture, (fetch_runs found).bind ?_,
        tidy.passed found ripe passed (exact_giveUp tidy.exact found released), passed⟩
      rw [if_neg (by simp [released]), if_neg (by
        rintro ⟨noPrevious, notIdr⟩
        rcases follows with idr | some
        · exact notIdr idr
        · simp [Option.isNone_iff_eq_none.mp noPrevious] at some)]
      have covered : ∀ target ∈ picture.held, ∃ named, window.find? target = some named ∧
          picture.held.count target ≤ named.holds.get level := by
        intro target member
        have claimed : target ∈ picture.claims level :=
          Picture.mem_claims_iff.mpr ⟨released, member⟩
        obtain ⟨named, foundNamed⟩ := exists_of_mem_handles (tidy.claims_live level target
          (mem_claims_iff.mpr ⟨handle, picture, found, claimed⟩))
        have counted := count_claims_release level found target
        have heldEq : picture.claims level = picture.held := by simp [Picture.claims, released]
        rw [heldEq] at counted
        have exact := tidy.exact level target named foundNamed
        exact ⟨named, foundNamed, by omega⟩
      have lowered : (window.lower level picture.held).find? handle = some { picture with
          holds := picture.holds.set level
            (picture.holds.get level - picture.held.count handle) } := by
        rw [find?_lower, found]
        rfl
      exact (forM_unhold_runs picture.held covered).bind (alter_runs lowered _)

structure Releasable (level : HoldLevel) (picture : Picture ι) : Prop where
  ripe : Ripe level picture
  follows : picture.type = .idr ∨ picture.previous.isSome = true

theorem Releasable.passed {picture : Picture ι} (releasable : Releasable level picture)
    (touched : Prop) [Decidable touched] (holds : PerLevel Nat) :
    Releasable level ((if touched then picture.release level else picture).withHolds holds) := by
  split
  · refine ⟨⟨releasable.ripe.1, ?_⟩, releasable.follows⟩
    rintro rfl
    exact releasable.ripe.2 rfl
  · exact ⟨releasable.ripe, releasable.follows⟩

theorem forM_releaseHeld_ok (level : HoldLevel) (targets : List Handle) (tidy : window.Tidy recent)
    (releasable : ∀ handle ∈ targets, ∃ picture, window.find? handle = some picture ∧
      Releasable level picture) :
    ∃ after, Runs (targets.forM (releaseHeld level)) window (.ok ()) after ∧ after.Tidy recent ∧
      Passed level targets window after := by
  induction targets generalizing window with
  | nil => exact ⟨window, runs_forM_nil _ _, tidy, ⟨by rw [release_nil]⟩⟩
  | cons handle rest ih =>
      obtain ⟨picture, found, able⟩ := releasable handle (List.mem_cons_self ..)
      obtain ⟨middle, runs, middleTidy, passed⟩ := releaseHeld_ok tidy found able.ripe able.follows
      obtain ⟨after, others, afterTidy, more⟩ := ih middleTidy fun other member => by
        obtain ⟨old, foundOld, oldAble⟩ := releasable other (List.mem_cons_of_mem _ member)
        obtain ⟨holds, foundAfter⟩ := passed.find? foundOld
        exact ⟨_, foundAfter, oldAble.passed (other ∈ [handle]) holds⟩
      exact ⟨after, runs.forM_cons others, afterTidy, passed.trans more⟩

/-! Pictures that leave. -/

theorem mayLeave_iff (picture : Picture ι) : mayLeave picture = true ↔
    picture.complete = true ∧ picture.released = ⟨true, true⟩ ∧ picture.holds.indirect = 0 := by
  cases released : picture.released
  simp [mayLeave, released, and_assoc]

theorem tidy_erase (tidy : window.Tidy recent) {handle : Handle} {picture : Picture ι}
    (found : window.find? handle = some picture) (free : mayLeave picture = true) :
    (window.erase handle).Tidy recent := by
  obtain ⟨complete, released, unheld⟩ := (mayLeave_iff picture).mp free
  have nothing : ∀ level, picture.claims level = [] := by
    intro level
    simp only [Picture.claims, released]
    cases level <;> rfl
  obtain ⟨front, back, around⟩ := exists_around found
  have claimsEq : ∀ level, (window.erase handle).claims level = window.claims level := by
    intro level
    simp only [claims, around.erase, around.entries, List.flatMap_append, List.flatMap_cons, nothing,
      List.nil_append]
  have remains : ∀ {other : Handle} {current : Picture ι},
      (window.erase handle).find? other = some current →
        other ≠ handle ∧ window.find? other = some current := by
    intro other current foundOther
    rw [find?_erase] at foundOther
    split at foundOther
    · cases foundOther
    · exact ⟨‹_›, foundOther⟩
  constructor
  · intro level other current foundOther
    rw [claimsEq]
    exact tidy.exact level other current (remains foundOther).2
  · exact fun other current foundOther => tidy.consistent other current (remains foundOther).2
  · intro target claimed
    rw [claimsEq] at claimed
    rw [handles_erase, List.mem_filter]
    refine ⟨tidy.live target claimed, ?_⟩
    have counted := tidy.exact .indirect handle picture found
    simp only [PerLevel.get, unheld, outside, List.count_nil, Nat.add_zero] at counted
    have unclaimed := List.count_eq_zero.mp counted.symm
    simp only [bne_iff_ne, ne_eq]
    rintro rfl
    exact unclaimed claimed

theorem pictures_perm_erase {handle : Handle}
    {picture : Picture ι} (found : window.find? handle = some picture) :
    window.pictures.Perm (picture :: (window.erase handle).pictures) := by
  obtain ⟨front, back, around⟩ := exists_around found
  have left : (window.erase handle).pictures = (front ++ back).map Prod.snd :=
    congrArg (List.map Prod.snd) around.erase
  rw [left]
  exact around.pictures_perm

theorem retire_runs {handle : Handle} {picture : Picture ι}
    (found : window.find? handle = some picture) (free : mayLeave picture = true) :
    Runs (retire handle) window (.ok picture) (window.erase handle) := by
  refine (fetch_runs found).bind ?_
  rw [if_pos free]
  exact remove_runs found

structure Leaves (targets : List Handle) (gone : List (Picture ι)) (before after : Window ι) :
    Prop where
  pictures : before.pictures.Perm (gone ++ after.pictures)
  gone : ∀ picture ∈ gone, picture.issued = true
  handles : after.handles = before.handles.filter fun handle => handle ∉ targets
  find? : ∀ handle, handle ∉ targets → after.find? handle = before.find? handle

theorem retireAll_ok (targets : List Handle) (tidy : window.Tidy recent)
    (distinct : targets.Nodup)
    (free : ∀ handle ∈ targets, ∃ picture, window.find? handle = some picture ∧
      mayLeave picture = true) :
    ∃ gone after, Runs (retireAll targets) window (.ok gone) after ∧ after.Tidy recent ∧
      Leaves targets gone window after := by
  induction targets generalizing window with
  | nil =>
      refine ⟨[], window, runs_pure _ _, tidy, List.Perm.refl _, by simp, ?_, fun _ _ => rfl⟩
      exact (List.filter_eq_self.mpr (by simp)).symm
  | cons handle rest ih =>
      obtain ⟨picture, found, leaves⟩ := free handle (List.mem_cons_self ..)
      rw [List.nodup_cons] at distinct
      obtain ⟨gone, after, runs, afterTidy, others⟩ :=
        ih (tidy_erase tidy found leaves) distinct.2 fun other member => by
          obtain ⟨old, foundOld, oldLeaves⟩ := free other (List.mem_cons_of_mem _ member)
          refine ⟨old, ?_, oldLeaves⟩
          have apart : other ≠ handle := by
            rintro rfl
            exact distinct.1 member
          rw [find?_erase, if_neg apart, foundOld]
      refine ⟨picture :: gone, after, ?_, afterTidy, ?_, ?_, ?_, ?_⟩
      · exact (retire_runs found leaves).bind (runs.bind (runs_pure _ _))
      · exact (pictures_perm_erase found).trans (others.pictures.cons picture)
      · intro other member
        rcases List.mem_cons.mp member with rfl | later
        · exact (tidy.consistent handle other found).issued ((mayLeave_iff other).mp leaves).1
        · exact others.gone other later
      · rw [others.handles, handles_erase, List.filter_filter]
        refine List.filter_congr fun other _ => ?_
        by_cases same : other = handle <;> simp [same]
      · intro other apart
        rw [List.mem_cons, not_or] at apart
        rw [others.find? other apart.2, find?_erase, if_neg apart.1]

/-! The three passes. -/

/-- What the three passes rely on: complete pictures may give up their holds, past pictures hold
themselves, and so does a complete last picture that has not given up its direct holds. -/
structure Retirable (recent : List Handle) (window : Window ι) : Prop where
  follows : ∀ handle picture, window.find? handle = some picture → picture.complete = true →
    picture.type = .idr ∨ picture.previous.isSome = true
  recents : ∀ handle ∈ recent, ∃ picture, window.find? handle = some picture ∧
    handle ∈ picture.held ∧ picture.released.indirect = false
  tail : ∀ handle picture, window.tail? = some handle → window.find? handle = some picture →
    picture.complete = true → handle ∈ picture.held

/-- What three passes leave of the complete pictures: somebody claims each of them, and those that
still claim something are held directly. All but the last one gave up their direct holds. -/
structure Swept (tail : Option Handle) (window : Window ι) : Prop where
  claimed : ∀ handle picture, window.find? handle = some picture → picture.complete = true →
    picture.holds.indirect ≠ 0
  indirect : ∀ handle picture, window.find? handle = some picture → picture.complete = true →
    picture.holds.direct = 0 → picture.released.indirect = true
  direct : ∀ handle picture, window.find? handle = some picture → picture.complete = true →
    some handle ≠ tail → picture.released.direct = true

section

variable {tail : Option Handle} {handle : Handle} {picture : Picture ι}

theorem Swept.claimer (swept : Swept tail window) (tidy : window.Tidy recent)
    (found : window.find? handle = some picture) (complete : picture.complete = true) :
    ∃ key holder, window.find? key = some holder ∧ handle ∈ holder.claims .indirect := by
  have claimed := swept.claimed handle picture found complete
  have counted := tidy.exact .indirect handle picture found
  simp only [PerLevel.get, outside, List.count_nil] at counted
  exact mem_claims_iff.mp (List.count_pos_iff.mp (by omega))

theorem Swept.keeper (swept : Swept tail window) (tidy : window.Tidy recent)
    (found : window.find? handle = some picture) (complete : picture.complete = true)
    (holding : picture.released.indirect = false) : handle ∈ recent ∨
      ∃ key holder, window.find? key = some holder ∧ handle ∈ holder.claims .direct := by
  have held : picture.holds.direct ≠ 0 := by
    intro unheld
    cases holding.symm.trans (swept.indirect handle picture found complete unheld)
  have counted := tidy.exact .direct handle picture found
  simp only [PerLevel.get, outside] at counted
  by_cases past : handle ∈ recent
  · exact Or.inl past
  · rw [List.count_eq_zero.mpr past] at counted
    exact Or.inr (mem_claims_iff.mp (List.count_pos_iff.mp (by omega)))

end

structure Cleared (recent : List Handle) (gone : List (Picture ι)) (before after : Window ι) :
    Prop where
  tidy : after.Tidy recent
  swept : Swept before.tail? after
  pictures : (before.pictures.map Picture.core).Perm
    (gone.map Picture.core ++ after.pictures.map Picture.core)
  gone : ∀ picture ∈ gone, picture.issued = true
  stays : ∃ keep : Handle → Bool, after.handles = before.handles.filter keep ∧
    (∀ handle picture, before.find? handle = some picture → picture.complete = false →
      keep handle = true) ∧
    (∀ handle ∈ recent, keep handle = true) ∧
    ∀ handle picture, before.find? handle = some picture → keep handle = true →
      ∃ other, after.find? handle = some other ∧ picture.Stays other ∧
        (handle ∈ recent → other.released.indirect = false)

theorem Cleared.back {gone : List (Picture ι)} {before after : Window ι}
    (cleared : Cleared recent gone before after) {handle : Handle} {other : Picture ι}
    (found : after.find? handle = some other) :
    ∃ picture, before.find? handle = some picture ∧ picture.Stays other := by
  obtain ⟨keep, handlesEq, _, _, stays⟩ := cleared.stays
  have live := mem_handles_of_find? found
  rw [handlesEq, List.mem_filter] at live
  obtain ⟨picture, foundBefore⟩ := exists_of_mem_handles live.1
  obtain ⟨same, foundSame, stay, _⟩ := stays handle picture foundBefore live.2
  cases find?_unique found foundSame
  exact ⟨picture, foundBefore, stay⟩

theorem Cleared.incomplete {gone : List (Picture ι)} {before after : Window ι}
    (cleared : Cleared recent gone before after) {handle : Handle} {picture : Picture ι}
    (found : before.find? handle = some picture) (incomplete : picture.complete = false) :
    ∃ other, after.find? handle = some other ∧ picture.Stays other := by
  obtain ⟨keep, _, keepIncomplete, _, stays⟩ := cleared.stays
  obtain ⟨other, foundOther, stay, _⟩ :=
    stays handle picture found (keepIncomplete handle picture found incomplete)
  exact ⟨other, foundOther, stay⟩

/-- After the first pass, a complete picture that is not held directly has given up its direct
holds: the last picture of the window, which keeps them, holds itself. -/
theorem releasable_second {final : Bool} {before after : Window ι} (tidy : after.Tidy recent)
    (retirable : Retirable recent before)
    (passed : Passed .direct (before.select (endsDirect final before.tail?)) before after)
    {handle : Handle} {picture : Picture ι} (found : after.find? handle = some picture)
    (ends : endsIndirect picture = true) :
    Releasable .indirect picture := by
  simp only [endsIndirect, Bool.and_eq_true, beq_iff_eq] at ends
  obtain ⟨old, _, foundOld, _⟩ := passed.back found
  have released := passed.released foundOld found
  have stays : old.Stays picture := passed.stays foundOld found fun member => by
    obtain ⟨same, foundSame, selected⟩ := (mem_select_iff _ handle).mp member
    cases find?_unique foundOld foundSame
    simp only [endsDirect, Bool.and_eq_true] at selected
    exact selected.1
  have complete : old.complete = true := stays.complete.symm.trans ends.1
  have follows : picture.type = .idr ∨ picture.previous.isSome = true := by
    have typeEq : picture.type = old.type := (congrArg Picture.type stays.core :)
    have previousEq : picture.previous = old.previous := (congrArg Picture.previous stays.core :)
    rw [typeEq, previousEq]
    exact retirable.follows handle old foundOld complete
  refine ⟨⟨ends.1, fun _ => ?_⟩, follows⟩
  by_cases member : handle ∈ before.select (endsDirect final before.tail?)
  · rw [if_pos member] at released
    rw [released]
    rfl
  · rw [if_neg member] at released
    cases direct : picture.released.direct with
    | true => rfl
    | false =>
        -- Only the last picture is passed over, and that one claims itself.
        have isTail : before.tail? = some handle := by
          rw [mem_select_iff] at member
          by_contra other
          refine member ⟨old, foundOld, ?_⟩
          simp [endsDirect, complete, Ne.symm other]
        have claimed : handle ∈ after.claims .direct := by
          refine mem_claims_iff.mpr
            ⟨handle, picture, found, Picture.mem_claims_iff.mpr ⟨direct, ?_⟩⟩
          rw [stays.held]
          exact retirable.tail handle old isTail foundOld complete
        have counted := tidy.exact .direct handle picture found
        have held := List.count_pos_iff.mpr claimed
        simp only [PerLevel.get] at counted
        omega

structure Passes (final : Bool) (recent : List Handle) (before middle after : Window ι) : Prop where
  direct : Runs ((before.select (endsDirect final before.tail?)).forM (releaseHeld .direct)) before
    (.ok ()) middle
  indirect : Runs ((middle.select fun _ picture => endsIndirect picture).forM
    (releaseHeld .indirect)) middle (.ok ()) after
  tidyBefore : before.Tidy recent
  tidyMiddle : middle.Tidy recent
  tidy : after.Tidy recent
  first : Passed .direct (before.select (endsDirect final before.tail?)) before middle
  second : Passed .indirect (middle.select fun _ picture => endsIndirect picture) middle after

theorem passes_ok (tidy : window.Tidy recent) (retirable : Retirable recent window) (final : Bool) :
    ∃ middle after, Passes final recent window middle after := by
  obtain ⟨w₁, runs₁, tidy₁, passed₁⟩ := forM_releaseHeld_ok .direct
    (window.select (endsDirect final window.tail?)) tidy fun handle member => by
      obtain ⟨picture, found, selected⟩ := (mem_select_iff _ handle).mp member
      simp only [endsDirect, Bool.and_eq_true] at selected
      exact ⟨picture, found, ⟨selected.1, by simp⟩,
        retirable.follows handle picture found selected.1⟩
  obtain ⟨w₂, runs₂, tidy₂, passed₂⟩ := forM_releaseHeld_ok .indirect
    (w₁.select fun _ picture => endsIndirect picture) tidy₁ fun handle member => by
      obtain ⟨picture, found, ends⟩ := (mem_select_iff _ handle).mp member
      exact ⟨picture, found,
        releasable_second tidy₁ retirable passed₁ found ends⟩
  exact ⟨w₁, w₂, runs₁, runs₂, tidy, tidy₁, tidy₂, passed₁, passed₂⟩

namespace Passes

variable {final : Bool} {before middle after : Window ι} {handle : Handle}
  {picture other : Picture ι}

theorem handles (passes : Passes final recent before middle after) :
    after.handles = before.handles :=
  passes.second.handles.trans passes.first.handles

theorem cores (passes : Passes final recent before middle after) :
    after.pictures.map Picture.core = before.pictures.map Picture.core :=
  passes.second.cores.trans passes.first.cores

theorem stays_first (passes : Passes final recent before middle after)
    (found : before.find? handle = some picture) (foundMiddle : middle.find? handle = some other) :
    picture.Stays other := by
  refine passes.first.stays found foundMiddle fun member => ?_
  obtain ⟨same, foundSame, selected⟩ :=
    (mem_select_iff _ handle).mp member
  cases find?_unique found foundSame
  simp only [endsDirect, Bool.and_eq_true] at selected
  exact selected.1

theorem stays_second (passes : Passes final recent before middle after)
    (found : middle.find? handle = some picture) (foundAfter : after.find? handle = some other) :
    picture.Stays other := by
  refine passes.second.stays found foundAfter fun member => ?_
  obtain ⟨same, foundSame, ends⟩ := (mem_select_iff _ handle).mp member
  cases find?_unique found foundSame
  simp only [endsIndirect, Bool.and_eq_true] at ends
  exact ends.1

theorem find? (passes : Passes final recent before middle after)
    (found : before.find? handle = some picture) :
    ∃ between other, middle.find? handle = some between ∧ after.find? handle = some other ∧
      picture.Stays other := by
  obtain ⟨_, foundMiddle⟩ := passes.first.find? found
  obtain ⟨_, foundAfter⟩ := passes.second.find? foundMiddle
  exact ⟨_, _, foundMiddle, foundAfter,
    (passes.stays_first found foundMiddle).trans (passes.stays_second foundMiddle foundAfter)⟩

theorem stays (passes : Passes final recent before middle after)
    (found : before.find? handle = some picture) :
    ∃ other, after.find? handle = some other ∧ picture.Stays other := by
  obtain ⟨_, other, _, foundAfter, stays⟩ := passes.find? found
  exact ⟨other, foundAfter, stays⟩

theorem recents (passes : Passes final recent before middle after)
    (retirable : Retirable recent before) (member : handle ∈ recent) :
    ∃ picture, after.find? handle = some picture ∧ picture.released.indirect = false ∧
      handle ∈ after.claims .indirect := by
  obtain ⟨picture, found, holdsSelf, holding⟩ := retirable.recents handle member
  obtain ⟨between, other, foundMiddle, foundAfter, stays⟩ := passes.find? found
  -- A past picture is held directly, so the second pass does not select it.
  have apart : handle ∉ middle.select fun _ picture => endsIndirect picture := by
    intro selected
    obtain ⟨same, foundSame, ends⟩ :=
      (mem_select_iff _ handle).mp selected
    cases find?_unique foundMiddle foundSame
    have counted := passes.tidyMiddle.exact .direct handle between foundMiddle
    have held : 0 < recent.count handle := List.count_pos_iff.mpr member
    simp only [endsIndirect, Bool.and_eq_true, beq_iff_eq] at ends
    simp only [PerLevel.get, outside] at counted
    omega
  have released := passes.second.released foundMiddle foundAfter
  rw [if_neg apart, passes.first.released found foundMiddle] at released
  have holdingAfter : other.released.indirect = false := by
    rw [released]
    split
    · exact holding
    · exact holding
  refine ⟨other, foundAfter, holdingAfter, mem_claims_iff.mpr
    ⟨handle, other, foundAfter, Picture.mem_claims_iff.mpr ⟨holdingAfter, ?_⟩⟩⟩
  rwa [stays.held]

theorem gave_direct (passes : Passes final recent before middle after)
    (found : after.find? handle = some other) (complete : other.complete = true)
    (passed : (final || some handle != before.tail?) = true) : other.released.direct = true := by
  obtain ⟨between, _, foundMiddle, _⟩ := passes.second.back found
  obtain ⟨picture, _, foundBefore, _⟩ := passes.first.back foundMiddle
  have completeBefore : picture.complete = true :=
    ((passes.stays_first foundBefore foundMiddle).trans
      (passes.stays_second foundMiddle found)).complete.symm.trans complete
  have selected : handle ∈ before.select (endsDirect final before.tail?) :=
    (mem_select_iff _ handle).mpr
      ⟨picture, foundBefore, by rw [endsDirect, completeBefore, passed, Bool.and_self]⟩
  have releasedFirst := passes.first.released foundBefore foundMiddle
  rw [if_pos selected] at releasedFirst
  rw [passes.second.released foundMiddle found, releasedFirst]
  split <;> rfl

theorem gave_indirect (passes : Passes final recent before middle after)
    (found : after.find? handle = some other) (complete : other.complete = true)
    (unheld : other.holds.direct = 0) : other.released.indirect = true := by
  obtain ⟨picture, _, foundMiddle, _⟩ := passes.second.back found
  have completeMiddle : picture.complete = true :=
    (passes.stays_second foundMiddle found).complete.symm.trans complete
  have countedMiddle := passes.tidyMiddle.exact .direct handle picture foundMiddle
  have countedAfter := passes.tidy.exact .direct handle other found
  rw [passes.second.claims_other (by simp)] at countedAfter
  have unheldMiddle : picture.holds.direct = 0 := by
    simp only [PerLevel.get] at countedMiddle countedAfter
    omega
  have selected : handle ∈ middle.select fun _ picture => endsIndirect picture :=
    (mem_select_iff _ handle).mpr
      ⟨picture, foundMiddle, by simp [endsIndirect, completeMiddle, unheldMiddle]⟩
  rw [passes.second.released foundMiddle found, if_pos selected]
  rfl

theorem free (passes : Passes final recent before middle after) (retirable : Retirable recent before)
    (found : after.find? handle = some picture) (free : isFree picture = true) :
    mayLeave picture = true := by
  simp only [isFree, Bool.and_eq_true, beq_iff_eq] at free
  have counted := passes.tidy.exact .indirect handle picture found
  simp only [PerLevel.get, free.2, outside, List.count_nil, Nat.add_zero] at counted
  have unclaimed : handle ∉ after.claims .indirect := List.count_eq_zero.mp counted.symm
  have notRecent : handle ∉ recent := by
    intro member
    obtain ⟨_, _, _, claimed⟩ := passes.recents retirable member
    exact unclaimed claimed
  -- Direct holds are given up first, so whoever claims directly claims indirectly too.
  have undirect : handle ∉ after.claims .direct :=
    fun claimed => unclaimed (passes.tidy.claims_subset .direct handle claimed)
  have unheld := passes.tidy.exact .direct handle picture found
  rw [List.count_eq_zero.mpr undirect] at unheld
  simp only [PerLevel.get, outside, List.count_eq_zero.mpr notRecent] at unheld
  have indirect := passes.gave_indirect found free.1 unheld
  have direct := (passes.tidy.consistent handle picture found).direct indirect
  simp [mayLeave, free.1, free.2, direct, indirect]

theorem swept (passes : Passes final recent before middle after) {last : Window ι}
    (left : ∀ handle picture, last.find? handle = some picture →
      after.find? handle = some picture ∧ isFree picture = false) : Swept before.tail? last := by
  constructor
  · intro handle picture found complete
    obtain ⟨_, kept⟩ := left handle picture found
    simpa [isFree, complete] using kept
  · intro handle picture found complete unheld
    obtain ⟨foundAfter, _⟩ := left handle picture found
    exact passes.gave_indirect foundAfter complete unheld
  · intro handle picture found complete apart
    obtain ⟨foundAfter, _⟩ := left handle picture found
    exact passes.gave_direct foundAfter complete (by simp [apart])

end Passes

theorem clear_of_passes {final : Bool} {w₁ w₂ : Window ι}
    (passes : Passes final recent window w₁ w₂) (retirable : Retirable recent window) :
    ∃ gone after, Runs (clear final) window (.ok gone) after ∧ Cleared recent gone window after ∧
      after.handles = w₂.handles.filter
        fun handle => handle ∉ w₂.select fun _ picture => isFree picture := by
  have freed : ∀ handle, handle ∈ (w₂.select fun _ picture => isFree picture) →
      ∃ picture, w₂.find? handle = some picture ∧ isFree picture = true :=
    fun handle member => (mem_select_iff _ handle).mp member
  obtain ⟨gone, after, retiring, afterTidy, leaves⟩ := retireAll_ok
    (w₂.select fun _ picture => isFree picture) passes.tidy
    ((select_sublist w₂ _).nodup w₂.handles_nodup) fun handle member => by
      obtain ⟨picture, found, free⟩ := freed handle member
      exact ⟨picture, found, passes.free retirable found free⟩
  have left : ∀ handle picture, after.find? handle = some picture →
      w₂.find? handle = some picture ∧ isFree picture = false := by
    intro handle picture found
    have live := mem_handles_of_find? found
    rw [leaves.handles, List.mem_filter, decide_eq_true_iff] at live
    rw [leaves.find? handle live.2] at found
    refine ⟨found, ?_⟩
    by_contra free
    rw [Bool.not_eq_false] at free
    exact live.2 ((mem_select_iff _ handle).mpr ⟨picture, found, free⟩)
  refine ⟨gone, after, ?_, ⟨afterTidy, passes.swept left, ?_, leaves.gone, _,
    leaves.handles.trans (by rw [passes.handles]), ?_, ?_, ?_⟩, leaves.handles⟩
  · exact (runs_get _).bind (passes.direct.bind ((runs_get _).bind (passes.indirect.bind
      ((runs_get _).bind retiring))))
  · rw [← passes.cores, ← List.map_append]
    exact leaves.pictures.map Picture.core
  · intro handle picture found incomplete
    rw [decide_eq_true_iff]
    intro member
    obtain ⟨other, foundOther, stays⟩ := passes.stays found
    obtain ⟨same, foundSame, free⟩ := freed handle member
    cases find?_unique foundOther foundSame
    simp [isFree, stays.complete, incomplete] at free
  · intro handle member
    rw [decide_eq_true_iff]
    intro selected
    obtain ⟨picture, found, free⟩ := freed handle selected
    obtain ⟨_, _, _, claimed⟩ := passes.recents retirable member
    have counted := passes.tidy.exact .indirect handle picture found
    have held := List.count_pos_iff.mpr claimed
    simp only [isFree, Bool.and_eq_true, beq_iff_eq] at free
    simp only [PerLevel.get] at counted
    omega
  · intro handle picture found kept
    rw [decide_eq_true_iff] at kept
    obtain ⟨other, foundOther, stays⟩ := passes.stays found
    refine ⟨other, by rw [leaves.find? handle kept, foundOther], stays, fun member => ?_⟩
    obtain ⟨same, foundSame, holding, _⟩ := passes.recents retirable member
    cases find?_unique foundOther foundSame
    exact holding

theorem clear_ok (tidy : window.Tidy recent) (retirable : Retirable recent window) (final : Bool) :
    ∃ gone after, Runs (clear final) window (.ok gone) after ∧ Cleared recent gone window after := by
  obtain ⟨w₁, w₂, passes⟩ := passes_ok tidy retirable final
  obtain ⟨gone, after, runs, cleared, _⟩ := clear_of_passes passes retirable
  exact ⟨gone, after, runs, cleared⟩

theorem unheld_of_released (tidy : window.Tidy [])
    (released : ∀ handle picture, window.find? handle = some picture →
      picture.released.get level = true) {handle : Handle} {picture : Picture ι}
    (found : window.find? handle = some picture) : picture.holds.get level = 0 := by
  rw [tidy.exact level handle picture found]
  have unclaimed : handle ∉ window.claims level := by
    intro claimed
    obtain ⟨other, holder, foundHolder, claims⟩ := mem_claims_iff.mp claimed
    have holding := (Picture.mem_claims_iff.mp claims).1
    rw [released other holder foundHolder] at holding
    cases holding
  rw [List.count_eq_zero.mpr unclaimed]
  cases level <;> rfl

theorem clear_final_ok (tidy : window.Tidy []) (retirable : Retirable [] window)
    (complete : ∀ handle picture, window.find? handle = some picture → picture.complete = true) :
    ∃ gone after, Runs (clear true) window (.ok gone) after ∧ Cleared [] gone window after ∧
      after.handles = [] := by
  obtain ⟨w₁, w₂, passes⟩ := passes_ok tidy retirable true
  obtain ⟨gone, after, runs, cleared, handlesEq⟩ := clear_of_passes passes retirable
  refine ⟨gone, after, runs, cleared, ?_⟩
  have complete₂ : ∀ handle picture, w₂.find? handle = some picture → picture.complete = true := by
    intro handle picture found₂
    have live := mem_handles_of_find? found₂
    rw [passes.handles] at live
    obtain ⟨old, found⟩ := exists_of_mem_handles live
    obtain ⟨same, foundSame, stays⟩ := passes.stays found
    cases find?_unique found₂ foundSame
    exact stays.complete.trans (complete handle old found)
  have direct : ∀ handle picture, w₂.find? handle = some picture →
      picture.released.get .direct = true :=
    fun handle picture found₂ => passes.gave_direct found₂ (complete₂ handle picture found₂) rfl
  have indirect : ∀ handle picture, w₂.find? handle = some picture →
      picture.released.get .indirect = true :=
    fun handle picture found₂ => passes.gave_indirect found₂ (complete₂ handle picture found₂)
      (unheld_of_released passes.tidy direct found₂)
  rw [handlesEq, List.filter_eq_nil_iff]
  intro handle live
  obtain ⟨picture, found₂⟩ := exists_of_mem_handles live
  have selected : handle ∈ w₂.select fun _ picture => isFree picture := by
    refine (mem_select_iff _ handle).mpr ⟨picture, found₂, ?_⟩
    have unheld : picture.holds.indirect = 0 := unheld_of_released passes.tidy indirect found₂
    simp [isFree, complete₂ handle picture found₂, unheld]
  simpa using selected

theorem clearAll_empty {window : Window ι} (empty : window.handles = []) :
    Runs clearAll window (.ok []) window := by
  refine (runs_get _).bind ?_
  rw [empty]
  exact runs_pure _ _

end Retirement

namespace Scheduler.Arranged

open Window Retirement

variable {ι : Type} {scheduler : Scheduler} {before after window : Window ι}
  {laid fresh recent : List Handle} {gone : List (Picture ι)}

theorem laid_of_issued (arranged : scheduler.Arranged window laid fresh) {handle : Handle}
    {picture : Picture ι} (found : window.find? handle = some picture)
    (issued : picture.issued = true) : handle ∈ laid ∧ handle ∉ fresh := by
  have apart : handle ∉ fresh := by
    intro member
    obtain ⟨same, foundSame, isFresh⟩ := arranged.unscheduled handle member
    cases find?_unique found foundSame
    rw [isFresh.waiting] at issued
    cases issued
  have live := mem_handles_of_find? found
  rw [arranged.handles] at live
  exact ⟨(List.mem_append.mp live).resolve_right apart, apart⟩

theorem retirable (arranged : scheduler.Arranged window laid fresh)
    (tidy : window.Tidy recent) : Retirable scheduler.past.recent window := by
  have scheduledOf : ∀ handle picture, window.find? handle = some picture → handle ∈ laid →
      window.Scheduled handle picture := by
    intro handle picture found isLaid
    obtain ⟨same, foundSame, scheduled⟩ := arranged.scheduled handle isLaid
    cases find?_unique found foundSame
    exact scheduled
  constructor
  · intro handle picture found complete
    have isLaid := arranged.laid_of_issued found
      ((tidy.consistent handle picture found).issued complete)
    exact (scheduledOf handle picture found isLaid.1).follows
  · intro handle member
    obtain ⟨isLaid, picture, found, reference, holding⟩ := arranged.recents handle member
    have kept := (scheduledOf handle picture found isLaid).kept reference
    exact ⟨picture, found, by simp [Picture.held, kept], holding⟩
  · intro handle picture tailEq found complete
    obtain ⟨isLaid, apart⟩ := arranged.laid_of_issued found
      ((tidy.consistent handle picture found).issued complete)
    rw [tail?_eq, arranged.handles] at tailEq
    have lastEq : laid.getLast? = some handle := by
      cases last : fresh.getLast? with
      | none => simpa [List.getLast?_append, last] using tailEq
      | some other =>
          rw [List.getLast?_append, last, Option.some_or, Option.some.injEq] at tailEq
          exact absurd (tailEq ▸ List.mem_of_getLast? last) apart
    obtain ⟨same, foundSame, _, reference⟩ := arranged.anchor handle lastEq
    cases find?_unique found foundSame
    have kept := (scheduledOf handle picture found isLaid).kept reference
    simp [Picture.held, kept]

theorem cleared (arranged : scheduler.Arranged before laid fresh)
    (cleared : Cleared scheduler.past.recent gone before after)
    (tidy : before.Tidy scheduler.past.recent) :
    ∃ remaining, scheduler.Arranged after remaining fresh ∧
      remaining.getLast? = laid.getLast? ∧ remaining.Sublist laid := by
  obtain ⟨keep, handlesEq, keepIncomplete, keepRecent, stays⟩ := cleared.stays
  -- What a picture that stays still holds stays too.
  have held : ∀ {handle : Handle} {picture : Picture ι}, before.find? handle = some picture →
      keep handle = true → (∀ other, picture.Stays other → (handle ∈ scheduler.past.recent →
        other.released.indirect = false) → other.released.indirect = false) →
      ∀ target ∈ picture.held, keep target = true := by
    intro handle picture found kept holding target member
    obtain ⟨other, foundOther, stay, recentHolds⟩ := stays handle picture found kept
    rw [← stay.continues.held] at member
    have live := cleared.tidy.held_live foundOther (holding other stay recentHolds) target member
    rw [handlesEq] at live
    exact (List.mem_filter.mp live).2
  have keepFresh : ∀ handle ∈ fresh, keep handle = true := by
    intro handle member
    obtain ⟨picture, found, isFresh⟩ := arranged.unscheduled handle member
    exact keepIncomplete handle picture found
      ((tidy.consistent handle picture found).incomplete isFresh.waiting)
  have keepAnchor : ∀ anchor, laid.getLast? = some anchor → keep anchor = true := by
    intro anchor lastEq
    obtain ⟨latest, picture, latestEq, found, keeps⟩ := arranged.latest anchor lastEq
    have member := List.mem_of_getLast? latestEq
    exact held found (keepRecent latest member) (fun _ _ holding => holding member) anchor keeps
  refine ⟨laid.filter keep, arranged.restrict keep handlesEq ?_ keepFresh keepRecent keepAnchor ?_,
    getLast?_filter_of_keep keepAnchor, List.filter_sublist⟩
  · intro handle picture found kept
    obtain ⟨other, foundOther, stay, recentHolds⟩ := stays handle picture found kept
    refine ⟨other, foundOther, stay.continues, fun _ isFresh => stay.fresh isFresh ?_,
      fun member _ => recentHolds member⟩
    exact (tidy.consistent handle picture found).incomplete isFresh.waiting
  · intro handle picture found waiting target needed
    have consistent := tidy.consistent handle picture found
    have incomplete := consistent.incomplete waiting
    refine held found (keepIncomplete handle picture found incomplete) (fun other stay _ => ?_)
      target ?_
    · rw [stay.incomplete incomplete, consistent.holding incomplete]
    · rw [List.mem_append] at needed
      simp only [Picture.held, List.mem_append]
      tauto

end Scheduler.Arranged

end VideoSchedule

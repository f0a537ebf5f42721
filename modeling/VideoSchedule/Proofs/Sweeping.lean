import VideoSchedule.Proofs.Retirement

/-!
What a sweep that succeeds has done, to any window at all: whatever the counts say, the three passes
reach a fixed point, and a second sweep finds nothing to do. A pass only touches the counts and the
marks of its own level, so what an earlier pass selected by is still there at the end.
-/

namespace VideoSchedule

open VideoSchedule.Action

structure Picture.Sheds {ι : Type} (level : HoldLevel) (before after : Picture ι) : Prop where
  core : after.core = before.core
  holds : ∀ other, other ≠ level → after.holds.get other = before.holds.get other
  released : ∀ other, before.released.get other = true → after.released.get other = true

namespace Picture.Sheds

variable {ι : Type} {level : HoldLevel} {before middle after : Picture ι}

theorem refl (level : HoldLevel) (picture : Picture ι) : picture.Sheds level picture :=
  ⟨rfl, fun _ _ => rfl, fun _ => id⟩

theorem trans (first : before.Sheds level middle) (second : middle.Sheds level after) :
    before.Sheds level after where
  core := second.core.trans first.core
  holds other apart := (second.holds other apart).trans (first.holds other apart)
  released other gave := second.released other (first.released other gave)

theorem complete (sheds : before.Sheds level after) : after.complete = before.complete :=
  (congrArg Picture.complete sheds.core :)

theorem unhold (level : HoldLevel) (picture : Picture ι) :
    picture.Sheds level (picture.unhold level) where
  core := rfl
  holds _ apart := PerLevel.get_set_of_ne _ _ apart
  released _ := id

theorem release (level : HoldLevel) (picture : Picture ι) :
    picture.Sheds level (picture.release level) where
  core := rfl
  holds _ _ := rfl
  released other gave := by
    by_cases same : other = level
    · subst same
      exact PerLevel.get_set_self _ _ _
    · exact (PerLevel.get_set_of_ne _ _ same).trans gave

end Picture.Sheds

namespace Window

variable {ι : Type} {level : HoldLevel} {window before middle after : Window ι}

def Sheds (level : HoldLevel) (before after : Window ι) : Prop :=
  ∃ change : Handle → Picture ι → Picture ι, after = before.each change ∧
    ∀ handle (picture : Picture ι), picture.Sheds level (change handle picture)

namespace Sheds

theorem refl (level : HoldLevel) (window : Window ι) : window.Sheds level window :=
  ⟨fun _ picture => picture, (each_id window).symm, fun _ => Picture.Sheds.refl level⟩

theorem trans (first : before.Sheds level middle) (second : middle.Sheds level after) :
    before.Sheds level after := by
  obtain ⟨early, rfl, shedsEarly⟩ := first
  obtain ⟨late, rfl, shedsLate⟩ := second
  exact ⟨_, each_each early late before,
    fun handle picture => (shedsEarly handle picture).trans (shedsLate handle _)⟩

theorem adjust (handle : Handle) {change : Picture ι → Picture ι}
    (sheds : ∀ picture : Picture ι, picture.Sheds level (change picture)) (window : Window ι) :
    window.Sheds level (window.adjust handle change) := by
  refine ⟨_, adjust_eq_each handle change window, fun other picture => ?_⟩
  split
  · exact sheds picture
  · exact Picture.Sheds.refl level picture

theorem handles (sheds : before.Sheds level after) : after.handles = before.handles := by
  obtain ⟨change, rfl, _⟩ := sheds
  exact handles_each change before

theorem cores (sheds : before.Sheds level after) :
    after.entries.map (fun entry => (entry.1, entry.2.core)) =
      before.entries.map fun entry => (entry.1, entry.2.core) := by
  obtain ⟨change, rfl, sheds⟩ := sheds
  rw [entries_each, List.map_map]
  exact List.map_congr_left fun entry _ => Prod.ext rfl (sheds entry.1 entry.2).core

theorem find? (sheds : before.Sheds level after) {handle : Handle} {picture : Picture ι}
    (found : before.find? handle = some picture) :
    ∃ other, after.find? handle = some other ∧ picture.Sheds level other := by
  obtain ⟨change, rfl, sheds⟩ := sheds
  exact ⟨change handle picture, by rw [find?_each, found]; rfl, sheds handle picture⟩

theorem back (sheds : before.Sheds level after) {handle : Handle} {other : Picture ι}
    (member : (handle, other) ∈ after.entries) :
    ∃ picture, (handle, picture) ∈ before.entries ∧ picture.Sheds level other := by
  obtain ⟨change, rfl, sheds⟩ := sheds
  rw [entries_each] at member
  obtain ⟨⟨key, picture⟩, memberBefore, same⟩ := List.mem_map.mp member
  cases same
  exact ⟨picture, memberBefore, sheds key picture⟩

end Sheds

theorem mem_select {condition : Handle → Picture ι → Bool} {handle : Handle} :
    handle ∈ window.select condition ↔
      ∃ picture, (handle, picture) ∈ window.entries ∧ condition handle picture = true := by
  simp [select]

theorem lookup_filter {entries : List (Handle × Picture ι)} (keep : Handle → Bool)
    {handle : Handle} (kept : keep handle = true) :
    (entries.filter (keep ·.1)).lookup handle = entries.lookup handle := by
  induction entries with
  | nil => rfl
  | cons entry rest ih =>
      by_cases same : handle = entry.1
      · rw [List.filter_cons_of_pos (same ▸ kept), List.lookup_cons, List.lookup_cons,
          beq_iff_eq.mpr same]
      · rw [List.lookup_cons, beq_eq_false_iff_ne.mpr same, List.filter_cons]
        split
        · rw [List.lookup_cons, beq_eq_false_iff_ne.mpr same, ih]
        · exact ih

def Gave (level : HoldLevel) (handle : Handle) (window : Window ι) : Prop :=
  ∃ picture, window.find? handle = some picture ∧ picture.released.get level = true

theorem Gave.sheds {other : HoldLevel} {handle : Handle} (gave : before.Gave level handle)
    (sheds : before.Sheds other after) : after.Gave level handle := by
  obtain ⟨picture, found, released⟩ := gave
  obtain ⟨later, foundLater, shed⟩ := sheds.find? found
  exact ⟨later, foundLater, shed.released level released⟩

theorem succeeds_fetch {handle : Handle} {picture : Picture ι} :
    Succeeds (fetch handle) before picture after ↔
      before.find? handle = some picture ∧ after = before := by
  constructor
  · rintro ⟨notices, fetched⟩
    cases looked : before.find? handle with
    | none => cases (fetch_missing looked).symm.trans fetched
    | some current =>
        cases (fetch_found looked).symm.trans fetched
        exact ⟨rfl, rfl⟩
  · rintro ⟨found, rfl⟩
    exact ⟨[], fetch_found found⟩

theorem succeeds_alter {handle : Handle} {change : Picture ι → Picture ι}
    (succeeds : Succeeds (alter handle change) before () after) :
    (∃ picture, before.find? handle = some picture) ∧ after = before.adjust handle change := by
  obtain ⟨notices, changed⟩ := succeeds
  cases looked : before.find? handle with
  | none => cases (alter_missing looked change).symm.trans changed
  | some picture =>
      cases (alter_found looked change).symm.trans changed
      exact ⟨⟨picture, rfl⟩, rfl⟩

theorem Sheds.of_unhold {handle : Handle} (succeeds : Succeeds (unhold level handle) before () after) :
    before.Sheds level after := by
  obtain ⟨picture, _, fetched, rest⟩ := succeeds_bind.mp succeeds
  obtain ⟨_, rfl⟩ := succeeds_fetch.mp fetched
  split at rest
  · exact absurd rest not_succeeds_refuse
  · rw [succeeds_modify.mp rest]
    exact Sheds.adjust handle (Picture.Sheds.unhold level) _

theorem Sheds.of_forM_unhold {targets : List Handle}
    (succeeds : Succeeds (targets.forM (unhold level)) before () after) :
    before.Sheds level after := by
  induction targets generalizing before with
  | nil =>
      obtain ⟨_, rfl⟩ := succeeds_pure.mp succeeds
      exact Sheds.refl level _
  | cons target rest ih =>
      obtain ⟨_, middle, head, tail⟩ := succeeds_bind.mp succeeds
      exact (Sheds.of_unhold head).trans (ih tail)

end Window

namespace Retirement

open Window

variable {ι : Type} {final : Bool} {level : HoldLevel} {window before after : Window ι}
  {handle : Handle} {targets : List Handle} {gone : List (Picture ι)}

/-! One pass. -/

theorem releaseHeld_succeeds (succeeds : Succeeds (releaseHeld level handle) before () after) :
    before.Sheds level after ∧ after.Gave level handle := by
  obtain ⟨picture, _, fetched, rest⟩ := succeeds_bind.mp succeeds
  obtain ⟨found, rfl⟩ := succeeds_fetch.mp fetched
  split at rest
  · obtain ⟨_, rfl⟩ := succeeds_pure.mp rest
    exact ⟨Sheds.refl level _, picture, found, ‹_›⟩
  · split at rest
    · exact absurd rest not_succeeds_refuse
    · obtain ⟨_, middle, unheld, released⟩ := succeeds_bind.mp rest
      obtain ⟨⟨current, found⟩, rfl⟩ := succeeds_alter released
      exact ⟨(Sheds.of_forM_unhold unheld).trans (Sheds.adjust handle (Picture.Sheds.release level) _),
        _, find?_adjust_self found _, PerLevel.get_set_self _ _ _⟩

theorem pass_succeeds (succeeds : Succeeds (targets.forM (releaseHeld level)) before () after) :
    before.Sheds level after ∧ ∀ handle ∈ targets, after.Gave level handle := by
  induction targets generalizing before with
  | nil =>
      obtain ⟨_, rfl⟩ := succeeds_pure.mp succeeds
      exact ⟨Sheds.refl level _, by simp⟩
  | cons target rest ih =>
      obtain ⟨_, middle, head, tail⟩ := succeeds_bind.mp succeeds
      obtain ⟨shedsHead, gave⟩ := releaseHeld_succeeds head
      obtain ⟨shedsTail, others⟩ := ih tail
      exact ⟨shedsHead.trans shedsTail, List.forall_mem_cons.mpr ⟨gave.sheds shedsTail, others⟩⟩

theorem releaseHeld_again (gave : window.Gave level handle) :
    releaseHeld level handle window = ⟨.ok (), window, []⟩ := by
  obtain ⟨picture, found, released⟩ := gave
  rw [releaseHeld, bind_silent (fetch_found found), if_pos released]
  rfl

theorem pass_again (gave : ∀ handle ∈ targets, window.Gave level handle) :
    targets.forM (releaseHeld level) window = ⟨.ok (), window, []⟩ := by
  induction targets with
  | nil => rfl
  | cons target rest ih =>
      obtain ⟨first, others⟩ := List.forall_mem_cons.mp gave
      exact (bind_silent (releaseHeld_again first)).trans (ih others)

/-! The pictures that leave. -/

theorem retire_succeeds {picture : Picture ι}
    (succeeds : Succeeds (retire handle) before picture after) :
    before.find? handle = some picture ∧ mayLeave picture = true ∧ after = before.erase handle := by
  obtain ⟨current, _, fetched, rest⟩ := succeeds_bind.mp succeeds
  obtain ⟨found, rfl⟩ := succeeds_fetch.mp fetched
  split at rest
  · obtain ⟨notices, removed⟩ := rest
    rw [remove_found found] at removed
    cases removed
    exact ⟨found, ‹_›, rfl⟩
  · exact absurd rest not_succeeds_refuse

theorem retireAll_succeeds (succeeds : Succeeds (retireAll targets) before gone after) :
    targets.Nodup ∧ after.entries = before.entries.filter (·.1 ∉ targets) ∧
      gone.map some = targets.map before.find? ∧ ∀ handle ∈ targets,
        ∃ picture, before.find? handle = some picture ∧ mayLeave picture = true := by
  induction targets generalizing before gone with
  | nil =>
      obtain ⟨rfl, rfl⟩ := succeeds_pure.mp succeeds
      exact ⟨List.nodup_nil, by simp, rfl, by simp⟩
  | cons target rest ih =>
      obtain ⟨picture, middle, head, others⟩ := succeeds_bind.mp succeeds
      obtain ⟨left, _, tail, returned⟩ := succeeds_bind.mp others
      obtain ⟨rfl, rfl⟩ := succeeds_pure.mp returned
      obtain ⟨found, leaves, rfl⟩ := retire_succeeds head
      obtain ⟨distinct, entries, pictures, leave⟩ := ih tail
      -- Once its picture has left, a handle names nothing, so none comes twice.
      have remains : ∀ other ∈ rest, other ≠ target ∧
          (before.erase target).find? other = before.find? other := by
        intro other member
        obtain ⟨_, foundOther, _⟩ := leave other member
        rw [find?_erase] at foundOther ⊢
        by_cases same : other = target
        · rw [if_pos same] at foundOther
          cases foundOther
        · exact ⟨same, if_neg same⟩
      refine ⟨List.nodup_cons.mpr ⟨fun member => (remains target member).1 rfl, distinct⟩, ?_, ?_,
        List.forall_mem_cons.mpr ⟨⟨picture, found, leaves⟩, fun other member => ?_⟩⟩
      · rw [entries, entries_erase, List.filter_filter]
        refine List.filter_congr fun entry _ => ?_
        by_cases same : entry.1 = target <;> simp [same]
      · rw [List.map_cons, List.map_cons, found, pictures]
        exact congrArg _ (List.map_congr_left fun other member => (remains other member).2)
      · rw [← (remains other member).2]
        exact leave other member

/-! The sweep. -/

structure Sweep (final : Bool) (before middle unheld : Window ι) (gone : List (Picture ι))
    (after : Window ι) : Prop where
  direct : Succeeds ((before.select (endsDirect final before.tail?)).forM (releaseHeld .direct))
    before () middle
  indirect : Succeeds ((middle.select fun _ picture => endsIndirect picture).forM
    (releaseHeld .indirect)) middle () unheld
  leave : Succeeds (retireAll (unheld.select fun _ picture => isFree picture)) unheld gone after

theorem clear_succeeds (succeeds : Succeeds (clear final) before gone after) :
    ∃ middle unheld, Sweep final before middle unheld gone after := by
  obtain ⟨_, _, looked, passes⟩ := succeeds_bind.mp succeeds
  obtain ⟨rfl, rfl⟩ := succeeds_get.mp looked
  obtain ⟨_, middle, direct, later⟩ := succeeds_bind.mp passes
  obtain ⟨_, _, looked, second⟩ := succeeds_bind.mp later
  obtain ⟨rfl, rfl⟩ := succeeds_get.mp looked
  obtain ⟨_, unheld, indirect, last⟩ := succeeds_bind.mp second
  obtain ⟨_, _, looked, leave⟩ := succeeds_bind.mp last
  obtain ⟨rfl, rfl⟩ := succeeds_get.mp looked
  exact ⟨_, _, direct, indirect, leave⟩

namespace Sweep

variable {middle unheld : Window ι} {picture : Picture ι}

theorem entries (sweep : Sweep final before middle unheld gone after) :
    after.entries = unheld.entries.filter
      (·.1 ∉ unheld.select fun _ picture => isFree picture) :=
  (retireAll_succeeds sweep.leave).2.1

theorem remains (sweep : Sweep final before middle unheld gone after)
    (member : (handle, picture) ∈ after.entries) :
    (handle, picture) ∈ unheld.entries ∧ isFree picture = false := by
  rw [sweep.entries, List.mem_filter, decide_eq_true_iff] at member
  refine ⟨member.1, ?_⟩
  by_contra free
  rw [Bool.not_eq_false] at free
  exact member.2 (mem_select.mpr ⟨picture, member.1, free⟩)

theorem handles (sweep : Sweep final before middle unheld gone after) :
    after.handles = before.handles.filter (· ∉ unheld.select fun _ picture => isFree picture) := by
  rw [← (pass_succeeds sweep.direct).1.handles, ← (pass_succeeds sweep.indirect).1.handles]
  rw [handles_eq, handles_eq, sweep.entries, List.filter_map]
  rfl

theorem gave {level : HoldLevel} (sweep : Sweep final before middle unheld gone after)
    (live : handle ∈ after.handles) (gave : unheld.Gave level handle) :
    after.Gave level handle := by
  rw [sweep.handles, List.mem_filter] at live
  obtain ⟨picture, found, released⟩ := gave
  refine ⟨picture, ?_, released⟩
  rw [find?_eq_lookup, sweep.entries]
  exact (lookup_filter (fun handle => decide
    (handle ∉ unheld.select fun _ picture => isFree picture)) live.2).trans
    (find?_eq_lookup unheld handle ▸ found)

theorem leaves (sweep : Sweep final before middle unheld gone after) (member : picture ∈ gone) :
    mayLeave picture = true := by
  obtain ⟨_, _, pictures, leave⟩ := retireAll_succeeds sweep.leave
  have listed := List.mem_map_of_mem (f := some) member
  rw [pictures] at listed
  obtain ⟨handle, selected, found⟩ := List.mem_map.mp listed
  obtain ⟨other, foundOther, mayLeave⟩ := leave handle selected
  cases find?_unique found foundOther
  exact mayLeave

theorem gone_eq (sweep : Sweep final before middle unheld gone after) :
    gone = (unheld.entries.filter fun entry => isFree entry.2).map Prod.snd := by
  obtain ⟨distinct, _, pictures, leave⟩ := retireAll_succeeds sweep.leave
  refine List.map_injective_iff.mpr (fun _ _ => Option.some.inj) (pictures.trans ?_)
  simp only [select, List.map_map] at distinct leave ⊢
  refine List.map_congr_left fun entry member => ?_
  obtain ⟨picture, found, leaves⟩ := leave entry.1 (List.mem_map_of_mem member)
  obtain ⟨complete, _, unused⟩ := (mayLeave_iff picture).mp leaves
  have free : (entry.1, picture) ∈ unheld.entries.filter fun entry => isFree entry.2 :=
    List.mem_filter.mpr ⟨mem_entries_of_find? found, by simp [isFree, complete, unused]⟩
  have same := List.inj_on_of_nodup_map distinct member free rfl
  exact found.trans (congrArg (fun entry => some entry.2) same.symm)

/-- What the first sweep passed over still has what it held, and is passed over again: the last
picture of the window, which is the last one still if it has not left. -/
theorem gave_direct (sweep : Sweep final before middle unheld gone after)
    (selected : handle ∈ after.select (endsDirect final after.tail?)) : after.Gave .direct handle := by
  obtain ⟨shedsDirect, gave⟩ := pass_succeeds sweep.direct
  obtain ⟨shedsIndirect, _⟩ := pass_succeeds sweep.indirect
  obtain ⟨picture, member, ends⟩ := mem_select.mp selected
  have live := mem_handles_of_find? (find?_of_mem_entries member)
  obtain ⟨memberUnheld, _⟩ := sweep.remains member
  obtain ⟨current, memberMiddle, shedLate⟩ := shedsIndirect.back memberUnheld
  obtain ⟨old, memberBefore, shedEarly⟩ := shedsDirect.back memberMiddle
  have early : handle ∈ before.select (endsDirect final before.tail?) := by
    refine mem_select.mpr ⟨old, memberBefore, ?_⟩
    simp only [endsDirect, Bool.and_eq_true, Bool.or_eq_true, bne_iff_ne] at ends ⊢
    refine ⟨?_, ends.2.imp_right fun apart last => apart ?_⟩
    · rw [← ends.1, shedLate.complete, shedEarly.complete]
    · have kept := live
      rw [sweep.handles, List.mem_filter] at kept
      rw [tail?_eq, sweep.handles]
      refine last.trans (Scheduler.Arranged.getLast?_filter_of_keep fun other lastOther => ?_).symm
      cases last.trans lastOther
      exact kept.2
  exact sweep.gave live ((gave handle early).sheds shedsIndirect)

theorem gave_indirect (sweep : Sweep final before middle unheld gone after)
    (selected : handle ∈ after.select fun _ picture => endsIndirect picture) :
    after.Gave .indirect handle := by
  obtain ⟨shedsIndirect, gave⟩ := pass_succeeds sweep.indirect
  obtain ⟨picture, member, ends⟩ := mem_select.mp selected
  obtain ⟨memberUnheld, _⟩ := sweep.remains member
  obtain ⟨current, memberMiddle, shed⟩ := shedsIndirect.back memberUnheld
  have early : handle ∈ middle.select fun _ picture => endsIndirect picture := by
    refine mem_select.mpr ⟨current, memberMiddle, ?_⟩
    have unmoved := shed.holds .direct (by simp)
    simp only [PerLevel.get] at unmoved
    rwa [endsIndirect, ← shed.complete, ← unmoved]
  exact sweep.gave (mem_handles_of_find? (find?_of_mem_entries member)) (gave handle early)

theorem none_free (sweep : Sweep final before middle unheld gone after) :
    after.select (fun _ picture => isFree picture) = [] := by
  rw [List.eq_nil_iff_forall_not_mem]
  intro handle selected
  obtain ⟨picture, member, free⟩ := mem_select.mp selected
  rw [(sweep.remains member).2] at free
  cases free

theorem again (sweep : Sweep final before middle unheld gone after) :
    clear final after = ⟨.ok [], after, []⟩ := by
  have first := pass_again fun _ selected => sweep.gave_direct selected
  have second := pass_again fun _ selected => sweep.gave_indirect selected
  have looks : get after = ⟨.ok after, after, []⟩ := rfl
  refine (bind_silent looks).trans ((bind_silent first).trans ((bind_silent looks).trans
    ((bind_silent second).trans ((bind_silent looks).trans ?_))))
  rw [sweep.none_free]
  rfl

theorem cores (sweep : Sweep final before middle unheld gone after) :
    unheld.entries.map (fun entry => (entry.1, entry.2.core)) =
      before.entries.map fun entry => (entry.1, entry.2.core) :=
  (pass_succeeds sweep.indirect).1.cores.trans (pass_succeeds sweep.direct).1.cores

theorem gone_sublist (sweep : Sweep final before middle unheld gone after) :
    (gone.map Picture.core).Sublist (before.pictures.map Picture.core) := by
  have cores := congrArg (List.map Prod.snd) sweep.cores
  simp only [List.map_map, Function.comp_def] at cores
  rw [sweep.gone_eq, pictures, List.map_map, List.map_map]
  exact cores ▸ List.filter_sublist.map _

theorem entries_sublist (sweep : Sweep final before middle unheld gone after) :
    (after.entries.map fun entry => (entry.1, entry.2.core)).Sublist
      (before.entries.map fun entry => (entry.1, entry.2.core)) := by
  rw [← sweep.cores, sweep.entries]
  exact List.filter_sublist.map _

theorem partition (sweep : Sweep final before middle unheld gone after) :
    (gone.map Picture.core ++ after.pictures.map Picture.core).Perm
      (before.pictures.map Picture.core) := by
  have cores := congrArg (List.map Prod.snd) sweep.cores
  simp only [List.map_map, Function.comp_def] at cores
  have remaining : after.entries = unheld.entries.filter fun entry => !isFree entry.2 := by
    rw [sweep.entries]
    refine List.filter_congr fun entry member => ?_
    have selected : entry.1 ∈ unheld.select (fun _ picture => isFree picture) ↔
        isFree entry.2 = true := by
      rw [mem_select_iff, find?_of_mem_entries member]
      simp
    simp [selected]
  rw [sweep.gone_eq, pictures, pictures, remaining, List.map_map, List.map_map, List.map_map,
    ← List.map_append]
  exact (List.filter_append_perm _ _).map _ |>.trans (.of_eq cores)

end Sweep

/-- What a sweep that succeeded leaves behind. -/
structure Settles (final : Bool) (before : Window ι) (gone : List (Picture ι)) (after : Window ι) :
    Prop where
  /-- A complete picture that is left is still held. -/
  used : ∀ picture ∈ after.pictures, picture.complete = true → picture.holds.indirect ≠ 0
  retired : ∀ picture ∈ gone, picture.complete = true ∧ picture.released = ⟨true, true⟩
  /-- Those that left and those that are left keep the order of the window, and but for counts and
  marks they are what they were. -/
  leaving : (gone.map Picture.core).Sublist (before.pictures.map Picture.core)
  staying : (after.entries.map fun entry => (entry.1, entry.2.core)).Sublist
    (before.entries.map fun entry => (entry.1, entry.2.core))
  partition : (gone.map Picture.core ++ after.pictures.map Picture.core).Perm
    (before.pictures.map Picture.core)
  /-- So a window in display order gives its pictures up in display order and stays in it. -/
  ordered : (before.pictures.map Picture.displayOrder).Pairwise (· < ·) →
    (gone.map Picture.displayOrder).Pairwise (· < ·) ∧
      (after.pictures.map Picture.displayOrder).Pairwise (· < ·)
  /-- A second sweep finds nothing to do. -/
  again : clear final after = ⟨.ok [], after, []⟩

theorem clear_settles {notices : List Notice}
    (ends : clear final before = ⟨.ok gone, after, notices⟩) : Settles final before gone after := by
  obtain ⟨middle, unheld, sweep⟩ := clear_succeeds ⟨notices, ends⟩
  have ordersOf : ∀ pictures : List (Picture ι), pictures.map Picture.displayOrder =
      (pictures.map Picture.core).map Picture.displayOrder := by
    intro pictures
    rw [List.map_map]
    rfl
  have staying : (after.pictures.map Picture.core).Sublist (before.pictures.map Picture.core) := by
    have both := sweep.entries_sublist.map Prod.snd
    simp only [List.map_map, Function.comp_def] at both
    simpa only [pictures, List.map_map, Function.comp_def] using both
  constructor
  case used =>
    intro picture member complete unused
    obtain ⟨⟨handle, _⟩, isLeft, rfl⟩ := List.mem_map.mp member
    have kept := (sweep.remains isLeft).2
    simp only [isFree, Bool.and_eq_false_iff, beq_eq_false_iff_ne] at kept
    rcases kept with incomplete | used
    · cases complete.symm.trans incomplete
    · exact used unused
  case retired =>
    intro picture member
    obtain ⟨complete, released, _⟩ := (mayLeave_iff picture).mp (sweep.leaves member)
    exact ⟨complete, released⟩
  case leaving => exact sweep.gone_sublist
  case staying => exact sweep.entries_sublist
  case partition => exact sweep.partition
  case ordered =>
    intro ordered
    rw [ordersOf] at ordered
    rw [ordersOf gone, ordersOf after.pictures]
    exact ⟨ordered.sublist (sweep.gone_sublist.map _), ordered.sublist (staying.map _)⟩
  case again => exact sweep.again

/-- A group that was encoded, each picture held by the next one, and an IDR picture behind it. -/
def spent : Window Unit :=
  ofPictures [
    { Picture.ofFrame 0 {} true () with
      type := .idr, issued := true, complete := true, isReference := true, dpb := [⟨0, 0⟩],
      holds := ⟨5, 5⟩ },
    { Picture.ofFrame 1 {} false () with
      issued := true, complete := true, isReference := true, past := [⟨0, 0⟩],
      dpb := [⟨1, 0⟩, ⟨0, 0⟩], previous := some ⟨0, 0⟩, holds := ⟨4, 4⟩ },
    { Picture.ofFrame 2 {} false () with
      issued := true, complete := true, past := [⟨1, 0⟩], dpb := [⟨1, 0⟩, ⟨0, 0⟩],
      previous := some ⟨1, 0⟩ },
    { Picture.ofFrame 3 {} true () with
      type := .idr, issued := true, isReference := true, dpb := [⟨3, 0⟩], holds := ⟨1, 1⟩ }]

theorem clear_settles_spent :
    ∃ gone after, clear false spent = ⟨.ok gone, after, []⟩ ∧
      gone.map Picture.displayOrder = [0, 1, 2] ∧
      after.pictures.map Picture.displayOrder = [3] ∧ Settles false spent gone after :=
  ⟨_, _, rfl, by decide +kernel, by decide +kernel, clear_settles rfl⟩

end Retirement

end VideoSchedule

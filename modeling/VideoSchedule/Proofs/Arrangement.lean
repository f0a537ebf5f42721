import VideoSchedule.Scheduler
import VideoSchedule.Proofs.Anchor

/-!
The order of a window. Pictures that were scheduled stand before those that wait; the last scheduled
one is an anchor, kept by the latest past picture, and every scheduled picture that was not issued
refers only to pictures that were issued or are less deep. `Window.Tidy` is what the counts need.
-/

namespace VideoSchedule

open VideoSchedule.Action

namespace Picture

variable {ι : Type}

def layout (picture : Picture ι) : Picture ι :=
  { picture with
    encodeOrder := none
    payload := none
    issued := false
    complete := false
    failed := false
    holds := ⟨0, 0⟩
    released := ⟨false, false⟩ }

/-- A picture is issued, then completed, then gives up its direct holds, then the indirect ones. -/
structure Consistent (picture : Picture ι) : Prop where
  issued : picture.complete = true → picture.issued = true
  complete : picture.released.direct = true → picture.complete = true
  direct : picture.released.indirect = true → picture.released.direct = true

structure Continues (before after : Picture ι) : Prop where
  layout : after.layout = before.layout
  issued : before.issued = true → after.issued = true

theorem Consistent.holding {picture : Picture ι} (consistent : picture.Consistent)
    (incomplete : picture.complete = false) : picture.released = ⟨false, false⟩ := by
  have direct : picture.released.direct = false := by
    cases released : picture.released.direct with
    | false => rfl
    | true => exact absurd (consistent.complete released) (by simp [incomplete])
  have indirect : picture.released.indirect = false := by
    cases released : picture.released.indirect with
    | false => rfl
    | true => exact absurd (consistent.direct released) (by simp [direct])
  cases released : picture.released with
  | mk first second =>
      rw [released] at direct indirect
      rw [show first = false from direct, show second = false from indirect]

theorem Consistent.incomplete {picture : Picture ι} (consistent : picture.Consistent)
    (waiting : picture.issued = false) : picture.complete = false := by
  cases complete : picture.complete with
  | false => rfl
  | true => exact absurd (consistent.issued complete) (by simp [waiting])

theorem Continues.refl (picture : Picture ι) : picture.Continues picture := ⟨rfl, id⟩

section Continues

variable {before after : Picture ι}

theorem Continues.held (continues : before.Continues after) : after.held = before.held :=
  (congrArg Picture.held continues.layout :)

theorem Continues.displayOrder (continues : before.Continues after) :
    after.displayOrder = before.displayOrder :=
  (congrArg Picture.displayOrder continues.layout :)

theorem Continues.isReference (continues : before.Continues after) :
    after.isReference = before.isReference :=
  (congrArg Picture.isReference continues.layout :)

theorem Continues.depth (continues : before.Continues after) : after.depth = before.depth :=
  (congrArg Picture.depth continues.layout :)

end Continues

theorem Fresh.held {picture : Picture ι} (fresh : picture.Fresh) : picture.held = [] := by
  simp [Picture.held, fresh.past, fresh.future, fresh.dpb, fresh.previous]

theorem Consistent.claims_subset {picture : Picture ι} (consistent : picture.Consistent)
    (level : HoldLevel) : ∀ target ∈ picture.claims level, target ∈ picture.claims .indirect := by
  intro target claimed
  rw [mem_claims_iff] at claimed ⊢
  obtain ⟨holding, member⟩ := claimed
  refine ⟨?_, member⟩
  cases level with
  | indirect => exact holding
  | direct =>
      cases released : picture.released.indirect with
      | false => exact released
      | true => exact absurd (consistent.direct released) (by simpa [PerLevel.get] using holding)

end Picture

namespace Window

variable {ι : Type}

/-- Counts are exact, and every claim is on a live picture. -/
structure Tidy (recent : List Handle) (window : Window ι) : Prop where
  exact : window.Exact recent
  consistent : ∀ handle picture, window.find? handle = some picture → picture.Consistent
  live : ∀ target ∈ window.claims .indirect, target ∈ window.handles

theorem Tidy.claims_subset {recent : List Handle} {window : Window ι} (tidy : window.Tidy recent)
    (level : HoldLevel) : ∀ target ∈ window.claims level, target ∈ window.claims .indirect := by
  intro target claimed
  obtain ⟨handle, picture, found, claims⟩ := mem_claims_iff.mp claimed
  exact mem_claims_iff.mpr
    ⟨handle, picture, found, (tidy.consistent handle picture found).claims_subset level target claims⟩

theorem Tidy.claims_live {recent : List Handle} {window : Window ι} (tidy : window.Tidy recent)
    (level : HoldLevel) : ∀ target ∈ window.claims level, target ∈ window.handles :=
  fun target claimed => tidy.live target (tidy.claims_subset level target claimed)

theorem Tidy.held_live {recent : List Handle} {window : Window ι} (tidy : window.Tidy recent)
    {handle : Handle} {picture : Picture ι} (found : window.find? handle = some picture)
    (holding : picture.released.indirect = false) : ∀ target ∈ picture.held,
      target ∈ window.handles := by
  intro target member
  exact tidy.live target (mem_claims_iff.mpr
    ⟨handle, picture, found, Picture.mem_claims_iff.mpr ⟨holding, member⟩⟩)

theorem Tidy.adjust {recent : List Handle} {window : Window ι} (tidy : window.Tidy recent)
    {handle : Handle} {change : Picture ι → Picture ι}
    (holds : ∀ picture, (change picture).holds = picture.holds)
    (claims : ∀ level picture, (change picture).claims level = picture.claims level)
    (consistent : ∀ picture, window.find? handle = some picture → (change picture).Consistent) :
    (window.adjust handle change).Tidy recent := by
  have claimsEq : (window.adjust handle change).claims .indirect = window.claims .indirect := by
    rw [adjust_eq_each]
    apply claims_each
    intro other picture
    split
    · exact claims .indirect picture
    · rfl
  constructor
  · exact tidy.exact.adjust holds claims
  · intro other picture found
    rw [find?_adjust] at found
    split at found
    next same =>
      subst same
      obtain ⟨old, foundOld, rfl⟩ := Option.map_eq_some_iff.mp found
      exact consistent old foundOld
    next => exact tidy.consistent other picture found
  · rw [claimsEq, handles_adjust]
    exact tidy.live

theorem Tidy.of_rewrites {recent later touched : List Handle} {before after : Window ι}
    (tidy : before.Tidy recent) (rewrites : Rewrites touched before after)
    (exact : after.Exact later)
    (live : ∀ handle ∈ touched, ∀ picture, after.find? handle = some picture →
      ∀ target ∈ picture.held, target ∈ after.handles) : after.Tidy later := by
  constructor
  · exact exact
  · intro handle picture found
    obtain ⟨old, foundOld, same⟩ := rewrites.find?_origin found
    have issuedEq : picture.issued = old.issued := (congrArg Picture.issued same :)
    have completeEq : picture.complete = old.complete := (congrArg Picture.complete same :)
    have releasedEq : picture.released = old.released := (congrArg Picture.released same :)
    have consistent := tidy.consistent handle old foundOld
    constructor
    · rw [issuedEq, completeEq]
      exact consistent.issued
    · rw [releasedEq, completeEq]
      exact consistent.complete
    · rw [releasedEq]
      exact consistent.direct
  · intro target claimed
    obtain ⟨handle, picture, found, claims⟩ := mem_claims_iff.mp claimed
    by_cases member : handle ∈ touched
    · exact live handle member picture found target (Picture.mem_claims_iff.mp claims).2
    · obtain ⟨_, foundOld⟩ := rewrites.find?_back found member
      rw [rewrites.handles]
      exact tidy.live target (mem_claims_iff.mpr ⟨handle, _, foundOld, claims⟩)

theorem Tidy.enter {recent : List Handle} {window : Window ι} (tidy : window.Tidy recent)
    (recentLive : ∀ handle ∈ recent, handle ∈ window.handles) {picture : Picture ι}
    (fresh : picture.Fresh) (incomplete : picture.complete = false) (free : picture.holds = ⟨0, 0⟩) :
    (window.enter picture).2.Tidy recent := by
  have claimsEq : ∀ level, (window.enter picture).2.claims level = window.claims level := by
    intro level
    simp [claims, entries_enter, Picture.claims, fresh.held]
  constructor
  · intro level handle other found
    rw [claimsEq]
    rw [find?_enter picture handle window] at found
    split at found
    next same =>
      cases found
      have unclaimed : (window.claims level).count handle = 0 :=
        List.count_eq_zero.mpr fun claimed =>
          window.nextHandle_not_mem (same ▸ tidy.claims_live level handle claimed)
      have outsider : (outside recent level).count handle = 0 := by
        cases level with
        | direct =>
            exact List.count_eq_zero.mpr fun member =>
              window.nextHandle_not_mem (same ▸ recentLive handle member)
        | indirect => rfl
      rw [unclaimed, outsider, free]
      cases level <;> rfl
    next => exact tidy.exact level handle other found
  · intro handle other found
    rw [find?_enter picture handle window] at found
    split at found
    · cases found
      refine ⟨?_, ?_, ?_⟩ <;> simp [fresh.waiting, fresh.released, incomplete]
    · exact tidy.consistent handle other found
  · rw [claimsEq, handles_enter]
    exact fun target claimed => List.mem_append_left _ (tidy.live target claimed)

theorem Tidy.held_live_of_incomplete {recent : List Handle} {window : Window ι}
    (tidy : window.Tidy recent) {handle : Handle} {picture : Picture ι}
    (found : window.find? handle = some picture) (incomplete : picture.complete = false) :
    ∀ target ∈ picture.held, target ∈ window.handles := by
  refine tidy.held_live found ?_
  rw [(tidy.consistent handle picture found).holding incomplete]

structure Scheduled (window : Window ι) (handle : Handle) (picture : Picture ι) : Prop where
  follows : picture.type = .idr ∨ picture.previous.isSome = true
  kept : picture.isReference = true → handle ∈ picture.dpb
  waits : picture.issued = false → picture.type = .bidirectional ∧
    ∀ target ∈ picture.past ++ picture.future, window.Settled picture.depth target

theorem Placed.scheduled {window : Window ι} {handle : Handle} {picture : Picture ι}
    (placed : window.Placed handle picture) : window.Scheduled handle picture :=
  ⟨Or.inr placed.follows, placed.kept, fun _ => ⟨placed.type, placed.settled⟩⟩

theorem Scheduled.continues {before after : Window ι} {handle : Handle} {picture other : Picture ι}
    (scheduled : before.Scheduled handle picture) (carried : picture.Continues other)
    (settled : picture.issued = false → ∀ target ∈ picture.past ++ picture.future,
      before.Settled picture.depth target → after.Settled picture.depth target) :
    after.Scheduled handle other := by
  have typeEq : other.type = picture.type := (congrArg Picture.type carried.layout :)
  have previousEq : other.previous = picture.previous :=
    (congrArg Picture.previous carried.layout :)
  have dpbEq : other.dpb = picture.dpb := (congrArg Picture.dpb carried.layout :)
  have pastEq : other.past = picture.past := (congrArg Picture.past carried.layout :)
  have futureEq : other.future = picture.future := (congrArg Picture.future carried.layout :)
  constructor
  · rw [typeEq, previousEq]
    exact scheduled.follows
  · rw [carried.isReference, dpbEq]
    exact scheduled.kept
  · intro waiting
    have unissued : picture.issued = false := by
      cases issued : picture.issued with
      | false => rfl
      | true => rw [carried.issued issued] at waiting; cases waiting
    obtain ⟨typed, ready⟩ := scheduled.waits unissued
    rw [typeEq, pastEq, futureEq, carried.depth]
    exact ⟨typed, fun target needed => settled unissued target needed (ready target needed)⟩

theorem Settled.continues {before after : Window ι} {depth : Nat} {handle : Handle}
    (settled : before.Settled depth handle)
    (continues : ∀ picture, before.find? handle = some picture →
      ∃ other, after.find? handle = some other ∧ picture.Continues other) :
    after.Settled depth handle := by
  obtain ⟨picture, found, ready⟩ := settled
  obtain ⟨other, foundOther, carried⟩ := continues picture found
  refine ⟨other, foundOther, ready.imp carried.issued ?_⟩
  rw [carried.held, carried.depth]
  exact id

end Window

/-- The scheduled pictures of a window and the fresh ones, in display order. -/
structure Scheduler.Arranged {ι : Type} (scheduler : Scheduler) (window : Window ι)
    (laid fresh : List Handle) : Prop where
  handles : window.handles = laid ++ fresh
  scheduled : ∀ handle ∈ laid, ∃ picture, window.find? handle = some picture ∧
    window.Scheduled handle picture
  unscheduled : ∀ handle ∈ fresh, ∃ picture, window.find? handle = some picture ∧ picture.Fresh
  ordered : window.handles.Pairwise window.Before
  bounded : ∀ handle picture, window.find? handle = some picture →
    picture.displayOrder < scheduler.inputOrder
  anchor : ∀ anchor, laid.getLast? = some anchor → ∃ picture,
    window.find? anchor = some picture ∧ picture.issued = true ∧ picture.isReference = true
  /-- The latest past picture keeps the last anchor. -/
  latest : ∀ anchor, laid.getLast? = some anchor → ∃ recent picture,
    scheduler.past.recent.getLast? = some recent ∧ window.find? recent = some picture ∧
      anchor ∈ picture.held
  recents : ∀ recent ∈ scheduler.past.recent, recent ∈ laid ∧ ∃ picture,
    window.find? recent = some picture ∧ picture.isReference = true ∧
      picture.released.indirect = false
  short : scheduler.past.recent.length ≤ maxListReferences
  /-- A stream opens with a forced IDR picture. -/
  opening : laid = [] → scheduler.past.recent = [] ∧ (fresh = [] → scheduler.inputOrder = 0) ∧
    ∀ first, fresh.head? = some first → ∃ picture,
      window.find? first = some picture ∧ picture.forceIdr = true
  shallow : scheduler.gop.maxBDepth + 2 ≤ maxDpbSize

theorem Scheduler.arranged_start {ι : Type} {gop : Gop} (shallow : gop.maxBDepth + 2 ≤ maxDpbSize) :
    (Scheduler.ofGop gop).Arranged ({} : Window ι) [] [] where
  handles := rfl
  scheduled := by simp
  unscheduled := by simp
  ordered := List.Pairwise.nil
  bounded _ _ found := by cases found
  anchor := by simp
  latest := by simp
  recents := by simp [Scheduler.ofGop]
  short := Nat.zero_le _
  opening _ := ⟨rfl, fun _ => rfl, by simp⟩
  shallow := shallow

namespace Scheduler.Arranged

open Window

variable {ι : Type} {scheduler : Scheduler} {before after window : Window ι}
  {laid fresh : List Handle}

theorem getLast?_filter_of_keep {handles : List Handle} {keep : Handle → Bool}
    (keeps : ∀ last, handles.getLast? = some last → keep last = true) :
    (handles.filter keep).getLast? = handles.getLast? := by
  cases lastEq : handles.getLast? with
  | none => simp [List.getLast?_eq_none_iff.mp lastEq]
  | some last =>
      have kept := keeps last lastEq
      obtain ⟨front, rfl⟩ := List.getLast?_eq_some_iff.mp lastEq
      simp [kept]

theorem restrict (arranged : scheduler.Arranged before laid fresh) (keep : Handle → Bool)
    (handles : after.handles = before.handles.filter keep)
    (continues : ∀ handle picture, before.find? handle = some picture → keep handle = true →
      ∃ other, after.find? handle = some other ∧ picture.Continues other ∧
        (handle ∈ fresh → picture.Fresh → other.Fresh) ∧
        (handle ∈ scheduler.past.recent → picture.released.indirect = false →
          other.released.indirect = false))
    (keepFresh : ∀ handle ∈ fresh, keep handle = true)
    (keepRecent : ∀ recent ∈ scheduler.past.recent, keep recent = true)
    (keepAnchor : ∀ anchor, laid.getLast? = some anchor → keep anchor = true)
    (keepNeeded : ∀ handle picture, before.find? handle = some picture →
      picture.issued = false → ∀ target ∈ picture.past ++ picture.future, keep target = true) :
    scheduler.Arranged after (laid.filter keep) fresh := by
  have sameLast := getLast?_filter_of_keep keepAnchor
  constructor
  case handles =>
    rw [handles, arranged.handles, List.filter_append, List.filter_eq_self.mpr keepFresh]
  case scheduled =>
    intro handle member
    obtain ⟨member, kept⟩ := List.mem_filter.mp member
    obtain ⟨picture, found, scheduled⟩ := arranged.scheduled handle member
    obtain ⟨other, foundOther, carried, _, _⟩ := continues handle picture found kept
    refine ⟨other, foundOther, scheduled.continues carried fun unissued target needed settled => ?_⟩
    refine settled.continues fun named foundNamed => ?_
    obtain ⟨later, foundLater, carriedLater, _, _⟩ :=
      continues target named foundNamed (keepNeeded handle picture found unissued target needed)
    exact ⟨later, foundLater, carriedLater⟩
  case unscheduled =>
    intro handle member
    obtain ⟨picture, found, isFresh⟩ := arranged.unscheduled handle member
    obtain ⟨other, foundOther, _, stays, _⟩ :=
      continues handle picture found (keepFresh handle member)
    exact ⟨other, foundOther, stays member isFresh⟩
  case ordered =>
    rw [handles]
    refine (arranged.ordered.filter _).imp_of_mem ?_
    intro first second firstMember secondMember ordered
    refine ordered.carry fun handle member picture found => ?_
    have kept : keep handle = true := by
      rcases List.mem_cons.mp member with rfl | member
      · exact (List.mem_filter.mp firstMember).2
      · rw [List.mem_singleton.mp member]
        exact (List.mem_filter.mp secondMember).2
    obtain ⟨other, foundOther, carried, _, _⟩ := continues handle picture found kept
    exact ⟨other, foundOther, carried.displayOrder⟩
  case bounded =>
    intro handle other foundOther
    have live := mem_handles_of_find? foundOther
    rw [handles] at live
    obtain ⟨live, kept⟩ := List.mem_filter.mp live
    obtain ⟨picture, found⟩ := exists_of_mem_handles live
    obtain ⟨same, foundSame, carried, _, _⟩ := continues handle picture found kept
    cases find?_unique foundOther foundSame
    rw [carried.displayOrder]
    exact arranged.bounded handle picture found
  case anchor =>
    intro anchor lastEq
    rw [sameLast] at lastEq
    obtain ⟨picture, found, issued, reference⟩ := arranged.anchor anchor lastEq
    obtain ⟨other, foundOther, carried, _, _⟩ :=
      continues anchor picture found (keepAnchor anchor lastEq)
    exact ⟨other, foundOther, carried.issued issued, carried.isReference.trans reference⟩
  case latest =>
    intro anchor lastEq
    rw [sameLast] at lastEq
    obtain ⟨recent, picture, recentEq, found, keeps⟩ := arranged.latest anchor lastEq
    obtain ⟨other, foundOther, carried, _, _⟩ :=
      continues recent picture found (keepRecent recent (List.mem_of_getLast? recentEq))
    refine ⟨recent, other, recentEq, foundOther, ?_⟩
    rwa [carried.held]
  case recents =>
    intro recent member
    obtain ⟨isLaid, picture, found, reference, holding⟩ := arranged.recents recent member
    obtain ⟨other, foundOther, carried, _, stays⟩ :=
      continues recent picture found (keepRecent recent member)
    exact ⟨List.mem_filter.mpr ⟨isLaid, keepRecent recent member⟩, other, foundOther,
      carried.isReference.trans reference, stays member holding⟩
  case short => exact arranged.short
  case opening =>
    intro empty
    rw [empty] at sameLast
    have nothing : laid = [] := List.getLast?_eq_none_iff.mp sameLast.symm
    obtain ⟨noRecent, atStart, forced⟩ := arranged.opening nothing
    refine ⟨noRecent, atStart, fun first firstEq => ?_⟩
    obtain ⟨picture, found, isForced⟩ := forced first firstEq
    obtain ⟨other, foundOther, carried, _, _⟩ :=
      continues first picture found (keepFresh first (List.mem_of_head? firstEq))
    have forcedEq : other.forceIdr = picture.forceIdr :=
      (congrArg Picture.forceIdr carried.layout :)
    exact ⟨other, foundOther, forcedEq.trans isForced⟩
  case shallow => exact arranged.shallow

theorem carry (arranged : scheduler.Arranged before laid fresh)
    (handles : after.handles = before.handles)
    (continues : ∀ handle picture, before.find? handle = some picture →
      ∃ other, after.find? handle = some other ∧ picture.Continues other ∧
        (handle ∈ fresh → picture.Fresh → other.Fresh) ∧
        (handle ∈ scheduler.past.recent → picture.released.indirect = false →
          other.released.indirect = false)) : scheduler.Arranged after laid fresh := by
  have whole : laid.filter (fun _ => true) = laid := List.filter_eq_self.mpr (by simp)
  rw [← whole]
  refine arranged.restrict (fun _ => true) ?_ (fun handle picture found _ =>
    continues handle picture found) ?_ ?_ ?_ ?_
  · rw [handles]
    exact (List.filter_eq_self.mpr (by simp)).symm
  all_goals intros; rfl

theorem adjust (arranged : scheduler.Arranged window laid fresh) {handle : Handle}
    (isLaid : handle ∈ laid) (apart : handle ∉ fresh) {change : Picture ι → Picture ι}
    (continues : ∀ picture : Picture ι, picture.Continues (change picture))
    (released : ∀ picture : Picture ι, (change picture).released = picture.released) :
    scheduler.Arranged (window.adjust handle change) laid fresh := by
  refine arranged.carry (handles_adjust handle change window) fun other picture found => ?_
  by_cases same : other = handle
  · subst same
    refine ⟨change picture, find?_adjust_self found change, continues picture, ?_, ?_⟩
    · exact fun member => absurd member apart
    · rw [released]
      exact fun _ => id
  · refine ⟨picture, ?_, Picture.Continues.refl picture, fun _ => id, fun _ => id⟩
    rwa [find?_adjust_of_ne same]

theorem of_scheduler (arranged : scheduler.Arranged window laid fresh) {other : Scheduler}
    (recent : other.past.recent = scheduler.past.recent)
    (inputOrder : other.inputOrder = scheduler.inputOrder)
    (depth : other.gop.maxBDepth = scheduler.gop.maxBDepth) :
    other.Arranged window laid fresh := by
  obtain ⟨handles, scheduled, unscheduled, ordered, bounded, anchor, latest, recents, short, opening,
    shallow⟩ := arranged
  rw [← inputOrder] at bounded opening
  rw [← recent] at latest recents short opening
  rw [← depth] at shallow
  exact ⟨handles, scheduled, unscheduled, ordered, bounded, anchor, latest, recents, short, opening,
    shallow⟩

theorem enter (arranged : scheduler.Arranged window laid fresh)
    {picture : Picture ι} (isFresh : picture.Fresh)
    (order : picture.displayOrder = scheduler.inputOrder)
    (forced : scheduler.inputOrder = 0 → picture.forceIdr = true) :
    scheduler.nextInput.2.Arranged (window.enter picture).2 laid
      (fresh ++ [window.nextHandle]) := by
  have foundNew := window.find?_enter_self picture
  have keeps : ∀ {handle : Handle} {old : Picture ι}, window.find? handle = some old →
      (window.enter picture).2.find? handle = some old := find?_enter_of_find? picture
  have settled : ∀ {depth : Nat} {handle : Handle}, window.Settled depth handle →
      (window.enter picture).2.Settled depth handle :=
    fun ready => ready.continues fun old found => ⟨old, keeps found, Picture.Continues.refl old⟩
  constructor
  case handles => rw [handles_enter, arranged.handles, List.append_assoc]
  case scheduled =>
    intro handle member
    obtain ⟨old, found, scheduled⟩ := arranged.scheduled handle member
    exact ⟨old, keeps found, scheduled.continues (Picture.Continues.refl old)
      fun _ _ _ ready => settled ready⟩
  case unscheduled =>
    intro handle member
    rcases List.mem_append.mp member with member | single
    · obtain ⟨old, found, stillFresh⟩ := arranged.unscheduled handle member
      exact ⟨old, keeps found, stillFresh⟩
    · rw [List.mem_singleton.mp single]
      exact ⟨picture, foundNew, isFresh⟩
  case ordered =>
    rw [handles_enter, List.pairwise_append]
    refine ⟨arranged.ordered.imp fun ordered => ?_, List.pairwise_singleton _ _, ?_⟩
    · exact ordered.carry fun handle _ old found => ⟨old, keeps found, rfl⟩
    · intro first member second single
      rw [List.mem_singleton.mp single]
      obtain ⟨earlier, foundEarlier⟩ := exists_of_mem_handles member
      refine ⟨earlier, picture, keeps foundEarlier, foundNew, ?_⟩
      rw [order]
      exact arranged.bounded first earlier foundEarlier
  case bounded =>
    intro handle other found
    rw [find?_enter picture handle window] at found
    show other.displayOrder < scheduler.inputOrder + 1
    split at found
    · cases found
      omega
    · have less := arranged.bounded handle other found
      omega
  case anchor =>
    intro anchor lastEq
    obtain ⟨old, found, facts⟩ := arranged.anchor anchor lastEq
    exact ⟨old, keeps found, facts⟩
  case latest =>
    intro anchor lastEq
    obtain ⟨recent, old, recentEq, found, member⟩ := arranged.latest anchor lastEq
    exact ⟨recent, old, recentEq, keeps found, member⟩
  case recents =>
    intro recent member
    obtain ⟨isLaid, old, found, facts⟩ := arranged.recents recent member
    exact ⟨isLaid, old, keeps found, facts⟩
  case short => exact arranged.short
  case opening =>
    intro empty
    obtain ⟨noRecent, atStart, opens⟩ := arranged.opening empty
    refine ⟨noRecent, by simp, fun first firstEq => ?_⟩
    cases fresh with
    | nil =>
        cases firstEq
        exact ⟨picture, foundNew, forced (atStart rfl)⟩
    | cons head rest =>
        obtain ⟨old, found, isForced⟩ := opens first firstEq
        exact ⟨old, keeps found, isForced⟩
  case shallow => exact arranged.shallow

end Scheduler.Arranged

end VideoSchedule

import VideoSchedule.Proofs.Boundaries

/-!
Barriers. Nothing that is displayed from an IDR picture on holds what is displayed before it, and no
past picture is from before it. So once the backend is done with an IDR picture, what is displayed
before it leaves the window as soon as all of it is complete.
-/

namespace VideoSchedule

open VideoSchedule.Action Window

namespace Cursor

variable {cursor : Cursor} {flags : List Bool} {ended forced : Bool} {skipped : Nat}

theorem Turns.eq_zero_of_idr (turns : cursor.Turns flags ended skipped forced)
    (idr : (cursor.gop.nextTop forced skipped).1 = .idr) : skipped = 0 := by
  have script := turns [] fun _ => rfl
  rw [List.append_nil, group, List.cons_append] at script
  have some : flags ≠ [] := by
    rintro rfl
    cases script
  obtain ⟨other, flag, closes, split⟩ := @script_splits cursor flags [] some
  rw [script, List.nil_append, group, List.cons_append] at split
  have lead : cursor.lead skipped forced = cursor.lead other flag := (List.cons.inj split).1
  have same : cursor.next + skipped = cursor.next + other := congrArg Outline.displayOrder lead
  rw [← type_lead, lead] at idr
  have none : other = 0 := closes.eq_zero_of_idr idr
  omega

end Cursor

section

variable {ι : Type} {window before after : Window ι} {recent : List Handle} {order : Nat}
  {handle target : Handle} {picture : Picture ι}

/-- Nothing that is displayed from `order` on holds what is displayed before, and no past picture is
from before. -/
structure Window.Divided (window : Window ι) (recent : List Handle) (order : Nat) : Prop where
  apart : ∀ handle picture, window.find? handle = some picture → order ≤ picture.displayOrder →
    ∀ target ∈ picture.held, target ∈ window.handles → order ≤ window.orderOf target
  recent : ∀ handle ∈ recent, handle ∈ window.handles → order ≤ window.orderOf handle

/-- As soon as what is displayed before `order` is complete, all of it has left. -/
def Window.Flushed (window : Window ι) (order : Nat) : Prop :=
  (∀ picture ∈ window.pictures, picture.displayOrder < order → picture.complete = true) →
    ∀ picture ∈ window.pictures, order ≤ picture.displayOrder

namespace Window.Divided

theorem keep (divided : before.Divided recent order)
    (keeps : ∀ handle other, after.find? handle = some other → ∃ picture,
      before.find? handle = some picture ∧ other.layout = picture.layout) :
    after.Divided recent order := by
  have stays : ∀ key ∈ after.handles,
      key ∈ before.handles ∧ after.orderOf key = before.orderOf key := by
    intro key live
    obtain ⟨other, found⟩ := exists_of_mem_handles live
    obtain ⟨picture, foundBefore, same⟩ := keeps key other found
    rw [orderOf_of_find? found, orderOf_of_find? foundBefore]
    exact ⟨mem_handles_of_find? foundBefore, (congrArg Picture.displayOrder same :)⟩
  constructor
  · intro key other found late target held live
    obtain ⟨picture, foundBefore, same⟩ := keeps key other found
    have orderEq : other.displayOrder = picture.displayOrder :=
      (congrArg Picture.displayOrder same :)
    have heldEq : other.held = picture.held := (congrArg Picture.held same :)
    rw [orderEq] at late
    rw [heldEq] at held
    rw [(stays target live).2]
    exact divided.apart key picture foundBefore late target held (stays target live).1
  · intro key member live
    rw [(stays key live).2]
    exact divided.recent key member (stays key live).1

theorem adjust (divided : window.Divided recent order) (handle : Handle)
    {change : Picture ι → Picture ι} (layout : ∀ picture, (change picture).layout = picture.layout) :
    (window.adjust handle change).Divided recent order := by
  refine divided.keep fun key other found => ?_
  rw [find?_adjust] at found
  split at found
  · obtain ⟨picture, foundBefore, rfl⟩ := Option.map_eq_some_iff.mp found
    exact ⟨picture, foundBefore, layout picture⟩
  · exact ⟨other, found, rfl⟩

theorem cleared (divided : before.Divided recent order) {past : List Handle}
    {gone : List (Picture ι)} (cleared : Retirement.Cleared past gone before after) :
    after.Divided recent order := by
  refine divided.keep fun key other found => ?_
  obtain ⟨picture, foundBefore, stays⟩ := cleared.back found
  exact ⟨picture, foundBefore, (congrArg Picture.layout stays.core :)⟩

theorem of_empty (empty : window.handles = []) : window.Divided recent order where
  apart _ _ _ _ target _ live := by
    rw [empty] at live
    cases live
  recent handle _ live := by
    rw [empty] at live
    cases live

theorem enter (divided : window.Divided recent order)
    (fresh : picture.Fresh) (late : order ≤ picture.displayOrder) :
    (window.enter picture).2.Divided recent order := by
  have lateOf : ∀ key ∈ (window.enter picture).2.handles,
      (key ∈ window.handles → order ≤ window.orderOf key) →
        order ≤ (window.enter picture).2.orderOf key := by
    intro key live old
    rw [handles_enter, List.mem_append, List.mem_singleton] at live
    rcases live with live | rfl
    · rw [orderOf_enter picture live]
      exact old live
    · rw [orderOf_of_find? (find?_enter_self picture _)]
      exact late
  constructor
  · intro key other found lateKey target held live
    refine lateOf target live fun old => ?_
    rw [find?_enter _ _ _] at found
    split at found
    · cases found
      rw [fresh.held] at held
      cases held
    · exact divided.apart key other found lateKey target held old
  · exact fun key member live => lateOf key live (divided.recent key member)

theorem early_of_held (divided : window.Divided recent order)
    (found : window.find? handle = some picture) (held : target ∈ picture.held)
    (live : target ∈ window.handles) (early : window.orderOf target < order) :
    picture.displayOrder < order := by
  by_contra late
  exact Nat.not_le_of_lt early
    (divided.apart handle picture found (Nat.le_of_not_lt late) target held live)

/-- What holds an early picture to the end is claimed by an early picture that has to give it up. -/
theorem flushed (divided : before.Divided recent order) {gone : List (Picture ι)}
    (behind : ∀ tail, before.tail? = some tail → order ≤ before.orderOf tail)
    (cleared : Retirement.Cleared recent gone before after) : after.Flushed order := by
  intro complete picture member
  by_contra late
  have early := Nat.lt_of_not_le late
  have dividedAfter := divided.cleared cleared
  have earlyOf : ∀ {key : Handle} {picture : Picture ι}, after.find? key = some picture →
      picture.displayOrder < order → after.orderOf key < order :=
    fun found early => by rwa [orderOf_of_find? found]
  have completeOf : ∀ {key : Handle} {picture : Picture ι}, after.find? key = some picture →
      picture.displayOrder < order → picture.complete = true :=
    fun found early => complete _ (mem_pictures_of_find? found) early
  obtain ⟨⟨handle, _⟩, entry, rfl⟩ := List.mem_map.mp member
  have found := find?_of_mem_entries entry
  have swept := cleared.swept
  obtain ⟨key, holder, foundHolder, claims⟩ :=
    swept.claimer cleared.tidy found (completeOf found early)
  obtain ⟨holding, held⟩ := Picture.mem_claims_iff.mp claims
  have earlyHolder := dividedAfter.early_of_held foundHolder held (mem_handles_of_find? found)
    (earlyOf found early)
  -- what retirement spares for good, the past pictures and the tail, is behind the barrier
  rcases swept.keeper cleared.tidy foundHolder (completeOf foundHolder earlyHolder) holding
    with past | ⟨last, claimer, foundClaimer, claimsHolder⟩
  · have late := dividedAfter.recent key past (mem_handles_of_find? foundHolder)
    exact Nat.not_le_of_lt (earlyOf foundHolder earlyHolder) late
  · obtain ⟨directly, heldHolder⟩ := Picture.mem_claims_iff.mp claimsHolder
    have earlyClaimer := dividedAfter.early_of_held foundClaimer heldHolder
      (mem_handles_of_find? foundHolder) (earlyOf foundHolder earlyHolder)
    have notTail : some last ≠ before.tail? := by
      intro tail
      have late := behind last tail.symm
      have remains : before.Remains after := .cleared cleared
      rw [← remains.orderOf (mem_handles_of_find? foundClaimer)] at late
      exact Nat.not_le_of_lt (earlyOf foundClaimer earlyClaimer) late
    have gave := swept.direct last claimer foundClaimer (completeOf foundClaimer earlyClaimer) notTail
    exact Bool.false_ne_true (directly.symm.trans gave)

end Window.Divided

namespace Window.Flushed

theorem congr (flushed : before.Flushed order)
    (same : after.pictures.map (fun picture => (picture.displayOrder, picture.complete)) =
      before.pictures.map fun picture => (picture.displayOrder, picture.complete)) :
    after.Flushed order := by
  have carry : ∀ {first second : Window ι} (condition : Nat × Bool → Prop),
      first.pictures.map (fun picture => (picture.displayOrder, picture.complete)) =
        second.pictures.map (fun picture => (picture.displayOrder, picture.complete)) →
      (∀ picture ∈ first.pictures, condition (picture.displayOrder, picture.complete)) →
        ∀ picture ∈ second.pictures, condition (picture.displayOrder, picture.complete) := by
    intro first second condition same all
    rwa [← List.forall_mem_map (P := condition), ← same, List.forall_mem_map]
  intro complete
  exact carry (fun view => order ≤ view.1) same.symm
    (flushed (carry (fun view => view.1 < order → view.2 = true) same complete))

theorem adjust (flushed : window.Flushed order) (handle : Handle) {change : Picture ι → Picture ι}
    (same : ∀ picture, ((change picture).displayOrder, (change picture).complete) =
      (picture.displayOrder, picture.complete)) : (window.adjust handle change).Flushed order :=
  flushed.congr (pictures_map_adjust handle change _ same window)

theorem of_rewrites (flushed : before.Flushed order) {touched : List Handle}
    (rewrites : Rewrites touched before after) : after.Flushed order :=
  flushed.congr (pictures_map_eq_of_plain_eq rewrites.plain _ fun _ => rfl)

theorem enter (flushed : window.Flushed order) (late : order ≤ picture.displayOrder) :
    (window.enter picture).2.Flushed order := by
  intro complete
  simp only [pictures_enter, List.forall_mem_append, List.forall_mem_singleton] at complete ⊢
  exact ⟨flushed complete.1, late⟩

theorem of_empty (empty : window.handles = []) : window.Flushed order := by
  intro _ picture member
  rw [pictures_eq_nil empty] at member
  cases member

end Window.Flushed

end

/-! What a pick lays out. -/

section

variable {ι : Type} {scheduler other : Scheduler} {window after : Window ι} {past : PastPictures}
  {start : Option Handle} {laid fresh front back : List Handle} {due : List (Mark Handle)}
  {origin : Cursor} {cues : List Bool} {done : List Outline} {handle key : Handle} {forced : Bool}
  {picture : Picture ι} {next order skipped : Nat}

theorem PastPictures.aims_subset (past : PastPictures) (window : Window ι) (handle : Handle)
    (start : Option Handle) : ∀ name ∈ past.aims window handle start,
      name ∈ (past.recent ++ start.toList).map window.orderOf := by
  intro name member
  rw [aims] at member
  rw [List.map_append]
  split at member
  · exact List.mem_append_left _ (nearest_subset _ _ name member)
  · exact List.mem_append_right _ member

theorem PastPictures.Predicts.holds (predicts : past.Predicts window handle start skipped picture)
    (noFuture : picture.future = []) : ∀ target ∈ picture.held,
      window.orderOf target ∈ (past.recent ++ (start.toList ++ [handle])).map window.orderOf := by
  have aimed : ∀ name ∈ past.aims window handle start,
      name ∈ (past.recent ++ (start.toList ++ [handle])).map window.orderOf := by
    intro name member
    rw [← List.append_assoc, List.map_append]
    exact List.mem_append_left _ (past.aims_subset window handle start name member)
  obtain ⟨kept, dpb, _, orders⟩ := predicts.dpb
  intro target held
  rw [Picture.held, noFuture, List.append_nil, dpb, List.mem_append, List.mem_append,
    List.mem_cons, Option.mem_toList] at held
  rcases held with (inPast | rfl | inKept) | previous
  · have listed := List.mem_map_of_mem (f := window.orderOf) inPast
    rw [predicts.references] at listed
    split at listed
    · cases listed
    · exact aimed _ listed
  · exact List.mem_map_of_mem (by simp)
  · have listed := List.mem_map_of_mem (f := window.orderOf) inKept
    rw [orders] at listed
    split at listed
    · cases listed
    · exact aimed _ listed
  · rw [predicts.previous] at previous
    split at previous
    · cases previous
    · exact List.mem_map_of_mem (List.mem_append_left _ (List.mem_of_getLast? previous))

theorem PastPictures.Predicts.holds_idr
    (predicts : past.Predicts window handle start skipped picture) (noFuture : picture.future = [])
    (idr : picture.type = .idr) : picture.held = [handle] := by
  obtain ⟨kept, dpb, _, orders⟩ := predicts.dpb
  have references := predicts.references
  have previous := predicts.previous
  rw [if_pos (by rw [idr]; rfl), List.map_eq_nil_iff] at references
  rw [if_pos (Or.inl idr), List.map_eq_nil_iff] at orders
  rw [if_pos idr] at previous
  rw [Picture.held, references, noFuture, dpb, orders, previous]
  rfl

theorem Hierarchy.needs_groupMarks (maxBDepth : Nat) (start : Option Handle) (front : List Handle)
    (handle : Handle) : ∀ mark ∈ groupMarks maxBDepth start front handle,
      ∀ name ∈ mark.needs, name ∈ start.toList ++ (front ++ [handle]) := by
  intro mark member name needed
  cases start with
  | none => cases member
  | some start =>
      have known := needs_chart _ _ _ _ _ _ mark member name needed
      simp only [List.mem_cons, List.not_mem_nil, or_false] at known
      simp only [Option.toList_some, List.mem_append, List.mem_singleton]
      tauto

theorem Hierarchy.last_groupMarks (maxBDepth : Nat) (start : Option Handle) (front : List Handle)
    (handle : Handle) :
    Mark.last handle (groupMarks maxBDepth start front handle) ∈ front ++ [handle] := by
  rcases Mark.last_cases handle (groupMarks maxBDepth start front handle) with
    ⟨_, same⟩ | ⟨_, mark, member, _, same⟩
  · rw [same]
    simp
  · rw [← same]
    exact List.mem_append_left _ (groupMarks_inside _ _ _ _ mark member)

namespace Scheduler.Groups

theorem mark_held (groups : Groups scheduler window start front handle forced other after)
    {mark : Mark Handle}
    (member : mark ∈ Hierarchy.groupMarks scheduler.gop.maxBDepth start front handle)
    (found : after.find? mark.picture = some picture) :
    ∀ target ∈ picture.held, target ∈ start.toList ++ (front ++ [handle]) := by
  obtain ⟨same, foundSame, describes⟩ := groups.charted mark member
  cases find?_unique found foundSame
  obtain ⟨_, previous, foundAgain, follows, among⟩ := groups.trailed.follows mark member
  cases find?_unique found foundAgain
  have inFront : ∀ {mark : Mark Handle},
      mark ∈ Hierarchy.groupMarks scheduler.gop.maxBDepth start front handle →
        mark.picture ∈ start.toList ++ (front ++ [handle]) := fun member =>
    List.mem_append_right _ (List.mem_append_left _ (Hierarchy.groupMarks_inside _ _ _ _ _ member))
  have needed := Hierarchy.needs_groupMarks _ _ _ _ mark member
  intro target held
  rw [Picture.held, describes.past, describes.future, describes.dpb, follows] at held
  simp only [List.mem_append, List.mem_singleton, Option.toList_some] at held
  rcases held with ((rfl | rfl) | self | inNeeds) | rfl
  · exact needed _ (by simp [Mark.needs])
  · exact needed _ (by simp [Mark.needs])
  · split at self
    · rw [List.mem_singleton.mp self]
      exact inFront member
    · cases self
  · exact needed _ inNeeds
  · rcases List.mem_cons.mp among with rfl | inMarks
    · simp
    · obtain ⟨mark, listed, rfl⟩ := List.mem_map.mp inMarks
      exact inFront listed

theorem holds (groups : Groups scheduler window start front handle forced other after)
    (opens : start = none → front = []) (member : key ∈ front ++ [handle])
    (found : after.find? key = some picture) : ∀ target ∈ picture.held, window.orderOf target ∈
      (scheduler.past.recent ++ (start.toList ++ (front ++ [handle]))).map window.orderOf := by
  intro target held
  rcases List.mem_append.mp member with inFront | single
  · have inMarks := (Hierarchy.pictures_groupMarks handle opens
      scheduler.gop.maxBDepth).mem_iff.mpr inFront
    obtain ⟨mark, listed, rfl⟩ := List.mem_map.mp inMarks
    exact List.mem_map_of_mem (List.mem_append_right _ (groups.mark_held listed found target held))
  · obtain ⟨anchor, foundAnchor, _, _, _, noFuture, predicts⟩ := groups.anchor
    rw [List.mem_singleton.mp single] at found
    cases find?_unique found foundAnchor
    have known := predicts.holds noFuture target held
    simp only [List.map_append, List.mem_append] at known ⊢
    tauto

end Scheduler.Groups

theorem Window.orderOf_le_getLast {handles : List Handle} {last : Handle}
    (ordered : handles.Pairwise window.Before) (member : handle ∈ handles)
    (isLast : handles.getLast? = some last) : window.orderOf handle ≤ window.orderOf last := by
  obtain ⟨init, rfl⟩ := List.getLast?_eq_some_iff.mp isLast
  rcases List.mem_append.mp member with earlier | same
  · have before := (List.pairwise_append.mp ordered).2.2 handle earlier last (by simp)
    exact Nat.le_of_lt before.orderOf_lt
  · rw [List.mem_singleton.mp same]

namespace Plot

theorem exists_recent (plot : Plot origin cues done scheduler window next laid fresh due)
    (went : done ≠ []) : ∃ recent ∈ scheduler.past.recent, recent ∈ laid := by
  obtain ⟨_, latest, _⟩ := plot.follows went
  have member := List.mem_of_getLast? latest.last
  exact ⟨_, member, (plot.arranged.recents _ member).1⟩

theorem tail_behind (plot : Plot origin cues done scheduler window next laid fresh due)
    (went : done ≠ []) (divided : window.Divided scheduler.past.recent order) :
    ∀ tail, window.tail? = some tail → order ≤ window.orderOf tail := by
  intro tail isLast
  obtain ⟨recent, past, isLaid⟩ := plot.exists_recent went
  have live := plot.arranged.laid_live isLaid
  exact Nat.le_trans (divided.recent recent past live)
    (orderOf_le_getLast plot.arranged.ordered live isLast)

theorem order_lt_inputOrder (plot : Plot origin cues done scheduler window next laid fresh due)
    (went : done ≠ []) (divided : window.Divided scheduler.past.recent order) :
    order < scheduler.inputOrder := by
  obtain ⟨recent, past, isLaid⟩ := plot.exists_recent went
  obtain ⟨picture, found⟩ := exists_of_mem_handles (plot.arranged.laid_live isLaid)
  have late := divided.recent recent past (mem_handles_of_find? found)
  rw [orderOf_of_find? found] at late
  exact Nat.lt_of_le_of_lt late (plot.arranged.bounded recent picture found)

theorem group_behind
    (plot : Plot origin cues done scheduler window next laid (front ++ handle :: back) due)
    (went : done ≠ []) (divided : window.Divided scheduler.past.recent order) :
    ∀ key ∈ scheduler.past.recent ++ (laid.getLast?.toList ++ (front ++ [handle])),
      order ≤ window.orderOf key := by
  have pastBehind : ∀ recent ∈ scheduler.past.recent, order ≤ window.orderOf recent :=
    fun recent past =>
      divided.recent recent past (plot.arranged.laid_live (plot.arranged.recents _ past).1)
  obtain ⟨recent, past, isLaid⟩ := plot.exists_recent went
  have behind := pastBehind recent past
  have ordered := plot.arranged.ordered
  rw [plot.arranged.handles] at ordered
  obtain ⟨orderedLaid, _, across⟩ := List.pairwise_append.mp ordered
  intro key member
  rcases List.mem_append.mp member with isPast | member
  · exact pastBehind key isPast
  rcases List.mem_append.mp member with isStart | inGroup
  · exact Nat.le_trans behind
      (orderOf_le_getLast orderedLaid isLaid (Option.mem_toList.mp isStart))
  · have isFresh : key ∈ front ++ handle :: back := by
      simp only [List.mem_append, List.mem_cons, List.not_mem_nil, or_false] at inGroup ⊢
      tauto
    exact Nat.le_trans behind (Nat.le_of_lt (across recent isLaid key isFresh).orderOf_lt)

theorem recents_behind
    (plot : Plot origin cues done scheduler window next laid (front ++ handle :: back) due)
    (went : done ≠ []) (divided : window.Divided scheduler.past.recent order)
    (groups : Scheduler.Groups scheduler window laid.getLast? front handle forced other after) :
    ∀ recent ∈ other.past.recent, order ≤ window.orderOf recent := by
  have behind := plot.group_behind went divided
  intro recent member
  rw [groups.recent, List.mem_append, List.mem_singleton] at member
  apply behind
  rcases member with old | rfl
  · exact List.mem_append_left _ (PastPictures.room_subset _ _ recent old)
  · exact List.mem_append_right _ (List.mem_append_right _ (Hierarchy.last_groupMarks ..))

theorem divided_anchor
    (plot : Plot origin cues done scheduler window next laid (front ++ handle :: back) [])
    (opens : laid = [] → front = []) (went : done ≠ [])
    (divided : window.Divided scheduler.past.recent order)
    (groups : Scheduler.Groups scheduler window laid.getLast? front handle forced other after) :
    after.Divided other.past.recent order := by
  have rewrites := groups.rewrites
  have behind := plot.group_behind went divided
  constructor
  · intro key picture found late target held live
    rw [rewrites.orderOf]
    rw [rewrites.handles] at live
    by_cases inGroup : key ∈ front ++ [handle]
    · have known := groups.holds (fun none => opens (List.getLast?_eq_none_iff.mp none)) inGroup
        found target held
      obtain ⟨source, listed, same⟩ := List.mem_map.mp known
      rw [← same]
      exact behind source listed
    · obtain ⟨holds, foundBefore⟩ := rewrites.find?_back found inGroup
      exact divided.apart key _ foundBefore late target held live
  · intro recent member _
    rw [rewrites.orderOf]
    exact plot.recents_behind went divided groups recent member

theorem divides_anchor
    (plot : Plot origin cues done scheduler window next laid (handle :: back) [])
    (groups : Scheduler.Groups scheduler window laid.getLast? [] handle forced other after)
    {anchor : Picture ι} (found : after.find? handle = some anchor) (idr : anchor.type = .idr) :
    after.Divided other.past.recent anchor.displayOrder := by
  obtain ⟨same, foundSame, typed, _, _, noFuture, predicts⟩ := groups.anchor
  cases find?_unique found foundSame
  have rewrites := groups.rewrites
  have here : anchor.displayOrder = window.orderOf handle := by
    rw [← rewrites.orderOf, orderOf_of_find? found]
  have ordered := plot.arranged.ordered
  rw [plot.arranged.handles] at ordered
  have across := (List.pairwise_append.mp ordered).2.2
  rw [here]
  constructor
  · intro key picture foundKey late target held live
    rw [rewrites.orderOf]
    by_cases isAnchor : key = handle
    · subst isAnchor
      cases find?_unique found foundKey
      rw [predicts.holds_idr noFuture idr, List.mem_singleton] at held
      rw [held]
    · obtain ⟨holds, foundBefore⟩ := rewrites.find?_back foundKey (by simpa using isAnchor)
      have liveKey := mem_handles_of_find? foundBefore
      rw [plot.arranged.handles, List.mem_append] at liveKey
      rcases liveKey with isLaid | isFresh
      · -- what was laid out is displayed before the picture
        have before := (across key isLaid handle (List.mem_cons_self ..)).orderOf_lt
        rw [orderOf_of_find? foundBefore] at before
        exact absurd late (Nat.not_le_of_lt before)
      · -- what still waits holds nothing
        obtain ⟨old, foundOld, fresh⟩ := plot.arranged.unscheduled key isFresh
        cases find?_unique foundBefore foundOld
        have nothing : picture.held = [] := fresh.held
        rw [nothing] at held
        cases held
  · intro recent member _
    rw [groups.recent, Hierarchy.groupMarks_nil, ← typed, idr, PastPictures.room,
      if_pos (by rfl), List.nil_append, List.mem_singleton] at member
    rw [member, rewrites.orderOf]
    rfl

theorem divides (plot : Plot origin cues done scheduler window next laid fresh due)
    (tidy : window.Tidy scheduler.past.recent)
    (runs : Runs Scheduler.pickNext (scheduler, window) (.ok (.picture handle)) (other, after)) :
    (∀ order, done ≠ [] → window.Divided scheduler.past.recent order →
      after.Divided other.past.recent order) ∧
    ∀ picture, after.find? handle = some picture → picture.type = .idr →
      after.Divided other.past.recent picture.displayOrder := by
  cases plot.chooses tidy runs with
  | due found describes =>
      refine ⟨fun _ _ => id, fun picture foundSame idr => ?_⟩
      cases find?_unique found foundSame
      cases describes.type.symm.trans idr
  | @anchor front back _ forced _ _ opens turns _ _ groups =>
      refine ⟨fun order went divided => ?_, fun picture found idr => ?_⟩
      · exact plot.divided_anchor (fun empty => (opens empty).1) went divided groups
      · obtain ⟨anchor, foundAnchor, typed, _⟩ := groups.anchor
        cases find?_unique found foundAnchor
        have none : front = [] :=
          List.length_eq_zero_iff.mp (turns.eq_zero_of_idr (typed.symm.trans idr))
        subst none
        exact plot.divides_anchor groups found idr

end Plot

end

/-! Sessions. -/

namespace Encoder

open Recorded

variable {B : Backend} {before after encoder opening : Encoder B.recorded} {origin : Cursor}
  {admitted : List (Frame × B.Image)} {packets more : List CodedPicture}
  {flight later : List (Handle × B.recorded.Promise)} {ledger : Ledger B.recorded}
  {cues : List Bool} {done : List Outline} {scheduler : Scheduler}
  {window : Window B.recorded.Image} {handle : Handle} {encodeOrder : Nat} {accepted : List Frame}

/-- Every IDR picture that was issued divides the window, and once the backend is done with it what is
displayed before it leaves as soon as it can. -/
structure Barred (encoder : Encoder B.recorded) : Prop where
  divided : ∀ request ∈ encoder.backend.requests, request.picture.type = .idr →
    encoder.window.Divided encoder.scheduler.past.recent request.picture.displayOrder
  flushed : ∀ fate ∈ encoder.backend.fates, fate.1.type = .idr →
    encoder.window.Flushed fate.1.displayOrder

theorem Accounts.exists_request (accounts : Accounts admitted packets encoder flight) {fate : Fate}
    (ended : fate ∈ encoder.backend.fates) :
    ∃ request ∈ encoder.backend.requests, request.picture = fate.1 := by
  have inAll := accounts.settled.subset (List.mem_append_left _ (List.mem_map_of_mem ended))
  exact List.mem_map.mp inAll

theorem Barred.congr (barred : Barred before) {allocated : List (Frame × Option B.Image)}
    (adds : before.backend.Adds after.backend allocated [] [] [])
    (window : after.window = before.window)
    (past : after.scheduler.past = before.scheduler.past) : Barred after where
  divided := by
    rw [adds.requests, List.append_nil, window, past]
    exact barred.divided
  flushed := by
    rw [adds.fates, List.append_nil, window]
    exact barred.flushed

theorem Stands.divides (stands : Stands origin cues done before) (core : before.Core ledger [] flight)
    (picks : Runs Scheduler.pickNext (before.scheduler, before.window) (.ok (.picture handle))
      (scheduler, window)) :
    (∀ order, done ≠ [] → before.window.Divided before.scheduler.past.recent order →
      window.Divided scheduler.past.recent order) ∧
    ∀ picture, window.find? handle = some picture → picture.type = .idr →
      window.Divided scheduler.past.recent picture.displayOrder := by
  obtain ⟨_, _, _, _, plot⟩ := stands.plot_of_live (live_of_picked core picks)
  exact plot.divides core.tidy picks

theorem Barred.issue (barred : Barred before) (tells : Tells origin admitted before)
    (core : before.Core ledger [] flight)
    (picks : Runs Scheduler.pickNext (before.scheduler, before.window) (.ok (.picture handle))
      (scheduler, window)) {picture : Picture B.recorded.Image} {request : Request B.Image}
    (asks : Asks (window.adjust handle (number (B := B.recorded) encodeOrder)) handle picture
      request) :
    ∀ asked ∈ before.backend.requests ++ [request], asked.picture.type = .idr →
      (issuedWindow (B := B.recorded) window handle encodeOrder).Divided scheduler.past.recent
        asked.picture.displayOrder := by
  obtain ⟨keeps, raises⟩ := tells.stands.divides core picks
  intro asked member idr
  rw [issuedWindow_eq]
  refine Divided.adjust ?_ handle fun _ => rfl
  rcases List.mem_append.mp member with old | new
  · refine keeps _ ?_ (barred.divided asked old idr)
    exact List.ne_nil_of_mem (List.mem_map_of_mem old)
  · rw [List.mem_singleton.mp new, asks.info] at idr ⊢
    obtain ⟨_, pickable⟩ := core.picked picks
    obtain ⟨old, found, _⟩ := pickable.waiting
    cases find?_unique asks.found (find?_adjust_self found (number (B := B.recorded) encodeOrder))
    exact raises old found idr

theorem Barred.of_cleared {next : Nat} {laid fresh : List Handle} {due : List (Mark Handle)}
    (plot : Plot origin cues done scheduler window next laid fresh due) (went : done ≠ [])
    (divided : ∀ request ∈ after.backend.requests, request.picture.type = .idr →
      window.Divided scheduler.past.recent request.picture.displayOrder)
    {gone : List (Picture B.recorded.Image)}
    (cleared : Retirement.Cleared scheduler.past.recent gone window after.window)
    (past : after.scheduler.past = scheduler.past)
    (accounts : Accounts admitted packets after flight) : Barred after where
  divided := by
    rw [past]
    exact fun request asked idr => (divided request asked idr).cleared cleared
  flushed := by
    intro fate ended idr
    obtain ⟨request, asked, same⟩ := accounts.exists_request ended
    rw [← same] at idr ⊢
    have here := divided request asked idr
    exact here.flushed (plot.tail_behind went here) cleared

theorem Barred.refuse (barred : Barred before) (tells : Tells origin admitted before)
    (core : before.Core ledger [] flight)
    (picks : Runs Scheduler.pickNext (before.scheduler, before.window) (.ok (.picture handle))
      (scheduler, window)) {picture : Picture B.recorded.Image} {request : Request B.Image}
    (asks : Asks (window.adjust handle (number (B := B.recorded) encodeOrder)) handle picture request)
    (requests : after.backend.requests = before.backend.requests ++ [request])
    {gone : List (Picture B.recorded.Image)}
    (cleared : Retirement.Cleared scheduler.past.recent gone
      ((issuedWindow (B := B.recorded) window handle encodeOrder).adjust handle
        (lose (B := B.recorded))) after.window)
    (past : after.scheduler.past = scheduler.past)
    (accounts : Accounts admitted packets after flight) : Barred after := by
  obtain ⟨_, _, _, _, plot⟩ := tells.stands.picks core picks asks
  obtain ⟨_, found, issued⟩ := found_of_picked core picks encodeOrder
  have lost := plot.advance found issued advances_lose.layout advances_lose.issued
    advances_lose.released
  refine .of_cleared lost (by simp) ?_ cleared past accounts
  rw [requests]
  exact fun asked member idr =>
    (barred.issue tells core picks asks asked member idr).adjust handle advances_lose.layout

theorem Barred.deliver (barred : Barred before) (tells : Tells origin admitted before)
    (found : ∃ picture, before.window.find? handle = some picture ∧ picture.issued = true)
    (went : before.backend.requests ≠ []) {ended : List Fate}
    (adds : before.backend.Adds after.backend [] [] [] ended)
    {change : Picture B.recorded.Image → Picture B.recorded.Image} (advances : Advances change)
    {gone : List (Picture B.recorded.Image)}
    (cleared : Retirement.Cleared before.scheduler.past.recent gone
      (before.window.adjust handle change) after.window)
    (past : after.scheduler.past = before.scheduler.past)
    (accounts : Accounts admitted packets after flight) : Barred after := by
  obtain ⟨picture, found, issued⟩ := found
  obtain ⟨_, _, _, _, plot⟩ := tells.stands.plot_of_live (mem_handles_of_find? found)
  have further := plot.advance found issued advances.layout advances.issued advances.released
  refine .of_cleared further (by simpa using went) ?_ cleared past accounts
  rw [adds.requests, List.append_nil]
  exact fun request asked idr => (barred.divided request asked idr).adjust handle advances.layout

theorem Barred.move (barred : Barred before) (chronicle : Chronicle origin admitted packets before flight)
    (move : Move before flight more after later) : Barred after := by
  have accounts := (chronicle.move move).accounts
  have tells := chronicle.tells
  cases move with
  | issue core free picks answers =>
      cases answers with
      | accepted asks answer =>
          obtain ⟨adds, _⟩ := Recorded.issue_adds answer
          obtain ⟨schedules, _⟩ := core.picked picks
          obtain ⟨_, rewrites, _⟩ := schedules.rewrites
          constructor
          · dsimp only
            rw [adds.requests]
            exact barred.issue tells core picks asks
          · dsimp only
            rw [adds.fates, List.append_nil, issuedWindow_eq]
            intro fate ended idr
            exact ((barred.flushed fate ended idr).of_rewrites rewrites).adjust _ fun _ => rfl
  | refuse core picks answers =>
      cases answers with
      | refused asks answer cleared =>
          exact barred.refuse tells core picks asks (Recorded.refused_adds _ answer).requests cleared
            rfl accounts
  | @deliver _ front _ _ picture _ _ _ core found numbered delivers =>
      obtain ⟨same, foundSame, issued, _⟩ := (core.flying front.1).mp (by simp)
      have asked : before.backend.requests ≠ [] := by
        have inFlight : front.2.1 ∈ before.backend.requests.map Request.picture :=
          chronicle.accounts.settled.subset (by simp)
        exact List.ne_nil_of_mem (List.mem_map.mp inFlight).choose_spec.1
      cases delivers with
      | failed foundHere _ answer cleared =>
          exact barred.deliver tells ⟨same, foundSame, issued⟩ asked
            (Recorded.collected_adds _ answer) advances_lose cleared rfl accounts
      | coded foundHere _ _ answer cleared =>
          exact barred.deliver tells ⟨same, foundSame, issued⟩ asked
            (Recorded.collected_adds _ answer) advances_handOver cleared rfl accounts
  | finish core ended issued finishes =>
      cases finishes with
      | retired pictures empty =>
          exact ⟨fun _ _ _ => .of_empty empty, fun _ _ _ => .of_empty empty⟩

theorem Barred.moves (barred : Barred before) (chronicle : Chronicle origin admitted packets before flight)
    (moves : Moves before flight more after later) : Barred after := by
  induction moves with
  | none => exact barred
  | next moves move ih => exact ih.move (chronicle.moves moves) move

theorem Barred.frame (barred : Barred before) (chronicle : Chronicle origin admitted packets before flight)
    (sound : before.Sound ledger) {frame : Frame} {rest : List Frame} {image : B.recorded.Image}
    (waiting : before.waiting = frame :: rest) {middle : Encoder B.recorded}
    (windowEq : middle.window = before.window) (schedulerEq : middle.scheduler = before.scheduler)
    (adds : before.backend.Adds middle.backend [(frame, some image)] [] [] []) :
    Barred (addPicture (B := B.recorded) frame image middle) := by
  obtain ⟨running, goesOn⟩ := sound.running_of_waiting waiting
  have requests := adds.requests
  have fates := adds.fates
  rw [List.append_nil] at requests fates
  have late : ∀ request ∈ before.backend.requests, request.picture.type = .idr →
      request.picture.displayOrder ≤ middle.scheduler.inputOrder := by
    intro request asked idr
    rw [schedulerEq]
    cases chronicle.tells.stands with
    | within plot =>
        have went := List.ne_nil_of_mem (List.mem_map_of_mem (f := Request.outline) asked)
        exact Nat.le_of_lt (plot.order_lt_inputOrder went (barred.divided request asked idr))
    | through _ ended => cases goesOn.symm.trans ended
  have here : Barred middle := barred.congr adds windowEq (congrArg Scheduler.past schedulerEq)
  constructor
  · intro request asked idr
    exact (here.divided request asked idr).enter (fresh_ofFrame (B := B.recorded) ..)
      (late request (requests ▸ asked) idr)
  · intro fate ended idr
    obtain ⟨request, asked, same⟩ := chronicle.accounts.exists_request (fates ▸ ended)
    refine (here.flushed fate ended idr).enter ?_
    rw [← same] at idr ⊢
    exact late request asked idr

theorem Barred.strides
    (barred : Barred before) (chronicle : Chronicle origin admitted packets before before.queue.promises)
    (sound : before.Sound ledger) {middle : Encoder B.recorded} (entry : Entry before middle)
    (moves : Moves middle middle.queue.promises more after later) : Barred after := by
  obtain ⟨_, entered, _⟩ := chronicle.strides sound entry .none
  refine Barred.moves ?_ entered moves
  cases entry with
  | nothing => exact barred
  | frame waiting answer =>
      exact barred.frame chronicle sound waiting rfl rfl (Recorded.allocated_adds answer)
  | ending => exact barred.congr (.refl _) rfl rfl

theorem Course.barred (course : Course Recorded.SameCalls opening accepted packets encoder)
    (starts : Chronicle origin [] [] opening opening.queue.promises) (empty : opening.waiting = [])
    (barred : Barred opening) (alive : encoder.failed = false) : Barred encoder := by
  induction course with
  | start => exact barred
  | step course sound strode ih =>
      cases strode with
      | dead failed => cases failed.symm.trans alive
      | fatal => cases alive
      | alive aliveBefore strides survives =>
          cases strides with
          | lost _ failed => cases survives _ failed
          | went entry picks _ last =>
              obtain ⟨_, chronicle, _⟩ := course.chronicle starts empty aliveBefore
              exact (ih aliveBefore).strides chronicle sound entry (picks.last last)
  | accept _ _ _ _ ih => exact (ih alive).congr (.refl _) rfl rfl
  | drain _ ih => exact (ih alive).congr (.refl _) rfl rfl
  | code _ _ ih => exact (ih alive).congr (.refl _) rfl rfl
  | abandon _ failed => cases failed.symm.trans alive
  | progress _ moved ih => exact (ih alive).congr (Recorded.adds_of_calls moved) rfl rfl

variable {start : Recorded B}

/-- Once an IDR picture was output or has failed, and all that is displayed before it is complete,
nothing that is displayed before it is in the window any more. -/
theorem Reachable.idr_flushes (nothing : start.calls = [])
    (reachable : Reachable (B := B.recorded) start SameCalls encoder) (alive : encoder.failed = false)
    {fate : Fate} (ended : fate ∈ encoder.backend.fates) (idr : fate.1.type = .idr)
    (complete : ∀ picture ∈ encoder.window.pictures,
      picture.displayOrder < fate.1.displayOrder → picture.complete = true) :
    ∀ picture ∈ encoder.window.pictures, fate.1.displayOrder ≤ picture.displayOrder := by
  obtain ⟨config, mode, gop, accepted, packets, valid, made, course⟩ := reachable.course
  have starts := Chronicle.start nothing valid made mode
  have opened : Barred (opened (B := B.recorded) start gop config mode) :=
    ⟨fun _ _ _ => .of_empty rfl, fun _ _ _ => .of_empty rfl⟩
  exact (course.barred starts rfl opened alive).flushed fate ended idr complete

/-- Nine frames with a keyframe asked for at the sixth, which the backend refuses. -/
def flushing (polls : Nat) : Encoder Backend.simulated.recorded :=
  (performAll (((List.range 9).map fun index => .encode { forceKey := index == 5 }) ++
      List.replicate polls .poll)
    (onDevice { Device.create .immediate none with failIssue := some (5, false) }
      { maxBFrames := 3, bDepth := 2, asyncDepth := 2 } .nonBlocking)).2

theorem idr_flushes_refused :
    (flushing 5).window.pictures.map (fun picture : Picture Nat =>
      (picture.displayOrder, picture.complete)) =
        [(0, true), (2, true), (4, true), (5, false), (6, false), (7, false)] ∧
    ∃ fate, (flushing 6).backend.fates[5]? = some fate ∧ fate.1.displayOrder = 5 ∧
      fate.1.type = .idr ∧ fate.2 = none ∧ (flushing 6).window.pictures ≠ [] ∧
      ∀ picture ∈ (flushing 6).window.pictures, fate.1.displayOrder ≤ picture.displayOrder := by
  have reachable : Reachable (B := Backend.simulated.recorded)
      { inner := { Device.create .immediate none with failIssue := some (5, false) } } SameCalls
      (flushing 6) :=
    (Calls.none.performAll _).reachable
      (.created { maxBFrames := 3, bDepth := 2, asyncDepth := 2 } .nonBlocking rfl)
  have ended : ((flushing 6).backend.fates[5]?.map fun fate =>
      (fate.1.displayOrder, fate.1.type, fate.2)) = some (5, .idr, none) := by decide +kernel
  obtain ⟨fate, ended, same⟩ := Option.map_eq_some_iff.mp ended
  obtain ⟨order, rest⟩ := Prod.mk.inj same
  obtain ⟨idr, failed⟩ := Prod.mk.inj rest
  refine ⟨by decide +kernel, fate, ended, order, idr, failed, by decide +kernel, ?_⟩
  refine Reachable.idr_flushes rfl reachable (by decide +kernel) (List.mem_of_getElem? ended) idr ?_
  rw [order]
  decide +kernel

end Encoder

end VideoSchedule

import VideoSchedule.Proofs.Schedule

/-!
Taking an anchor. It is typed and built, the group before it is laid out, and the last reference
picture of both becomes a past picture; once the anchor is issued, the window is arranged again.
-/

namespace VideoSchedule

open VideoSchedule.Action

def Picture.issue {ι : Type} (picture : Picture ι) : Picture ι := { picture with issued := true }

theorem Picture.continues_issue {ι : Type} (picture : Picture ι) :
    picture.Continues picture.issue :=
  ⟨rfl, fun _ => rfl⟩

namespace Scheduler

open Window Hierarchy

variable {ι : Type} {scheduler other : Scheduler} {window after : Window ι}
  {laid fresh front back : List Handle} {handle : Handle}

structure Succeeds (before after : List Handle) (last : Handle) : Prop where
  ends : after.getLast? = some last
  others : ∀ recent ∈ after, recent ∈ before ∨ recent = last
  short : after.length ≤ maxListReferences

theorem Arranged.nodup (arranged : scheduler.Arranged window laid fresh) : (laid ++ fresh).Nodup := by
  rw [← arranged.handles]
  exact arranged.ordered.imp Before.ne

theorem Arranged.laid_apart (arranged : scheduler.Arranged window laid (front ++ handle :: back))
    {key : Handle} (isLaid : key ∈ laid) : key ∉ front ++ [handle] := by
  have distinct := arranged.nodup
  simp only [List.nodup_append, List.mem_append, List.mem_cons] at distinct
  simp only [List.mem_append, List.mem_singleton]
  grind

theorem Arranged.back_apart (arranged : scheduler.Arranged window laid (front ++ handle :: back))
    {key : Handle} (isBack : key ∈ back) : key ∉ front ++ [handle] := by
  have distinct := arranged.nodup
  simp only [List.nodup_append, List.nodup_cons, List.mem_cons] at distinct
  simp only [List.mem_append, List.mem_singleton]
  grind

theorem Arranged.front_apart (arranged : scheduler.Arranged window laid (front ++ handle :: back)) :
    handle ∉ front := by
  have distinct := arranged.nodup
  simp only [List.nodup_append, List.nodup_cons, List.mem_cons] at distinct
  grind

/-- An anchor with its lists filled, behind its group that is laid out. `last` is the reference
picture to follow. -/
structure Extension (scheduler : Scheduler) (window : Window ι) (front : List Handle)
    (handle : Handle) (other : Scheduler) (after : Window ι) (anchor : Picture ι) (last : Handle) :
    Prop where
  rewrites : Rewrites (front ++ [handle]) window after
  spread : Spread after front [handle]
  found : after.find? handle = some anchor
  anchored : after.Anchored handle anchor
  reference : anchor.isReference = true
  follows : Follows after front handle last
  succeeds : Succeeds scheduler.past.recent other.past.recent last
  inputOrder : other.inputOrder = scheduler.inputOrder
  depth : other.gop.maxBDepth = scheduler.gop.maxBDepth

theorem find?_issue {key : Handle} {picture : Picture ι} (found : window.find? key = some picture)
    (handle : Handle) : ∃ later, (window.adjust handle Picture.issue).find? key = some later ∧
      picture.Continues later ∧ later.released = picture.released := by
  by_cases same : key = handle
  · subst same
    exact ⟨_, find?_adjust_self found _, picture.continues_issue, rfl⟩
  · exact ⟨picture, by rwa [find?_adjust_of_ne same], Picture.Continues.refl picture, rfl⟩

theorem settled_issue {depth : Nat} {key : Handle} (settled : window.Settled depth key)
    (handle : Handle) : (window.adjust handle Picture.issue).Settled depth key := by
  refine settled.continues fun picture found => ?_
  obtain ⟨later, foundLater, continues, _⟩ := find?_issue found handle
  exact ⟨later, foundLater, continues⟩

namespace Extension

variable {anchor : Picture ι} {last : Handle}

theorem find? (extension : Extension scheduler window front handle other after anchor last)
    {key : Handle} {picture : Picture ι} (found : window.find? key = some picture) :
    ∃ later, (after.adjust handle Picture.issue).find? key = some later ∧
      later.displayOrder = picture.displayOrder ∧ later.released = picture.released := by
  obtain ⟨middle, foundMiddle, same⟩ := extension.rewrites.find? found
  obtain ⟨later, foundLater, continues, released⟩ := find?_issue foundMiddle handle
  have middleOrder : middle.displayOrder = picture.displayOrder :=
    (congrArg Picture.displayOrder same :)
  have middleReleased : middle.released = picture.released := (congrArg Picture.released same :)
  exact ⟨later, foundLater, continues.displayOrder.trans middleOrder,
    released.trans middleReleased⟩

theorem find?_other (extension : Extension scheduler window front handle other after anchor last)
    {key : Handle} {picture : Picture ι} (found : window.find? key = some picture)
    (apart : key ∉ front ++ [handle]) :
    ∃ holds, (after.adjust handle Picture.issue).find? key = some (picture.withHolds holds) := by
  obtain ⟨holds, foundAfter⟩ := extension.rewrites.find?_other found apart
  refine ⟨holds, ?_⟩
  rwa [find?_adjust_of_ne (by rintro rfl; simp at apart)]

theorem last_reference (extension : Extension scheduler window front handle other after anchor last) :
    last ∈ front ++ [handle] ∧ ∃ picture,
      (after.adjust handle Picture.issue).find? last = some picture ∧ picture.isReference = true ∧
        handle ∈ picture.held := by
  have keeps : last ∈ front ++ [handle] ∧ ∃ picture, after.find? last = some picture ∧
      picture.isReference = true ∧ handle ∈ picture.held := by
    rcases extension.follows with rfl | ⟨member, picture, found, reference⟩
    · refine ⟨by simp, anchor, extension.found, extension.reference, ?_⟩
      simp [Picture.held, extension.anchored.kept]
    · obtain ⟨same, foundSame, _, keeps⟩ := extension.spread last member
      cases find?_unique found foundSame
      exact ⟨List.mem_append_left _ member, picture, found, reference,
        keeps handle (List.mem_singleton_self _)⟩
  obtain ⟨member, picture, found, reference, keeps⟩ := keeps
  obtain ⟨later, foundLater, continues, _⟩ := find?_issue found handle
  exact ⟨member, later, foundLater, continues.isReference.trans reference,
    by rwa [continues.held]⟩

theorem scheduled (extension : Extension scheduler window front handle other after anchor last)
    (arranged : scheduler.Arranged window laid (front ++ handle :: back))
    (issued : ∀ handle ∈ laid, ∃ picture, window.find? handle = some picture ∧
      picture.issued = true) {key : Handle} (member : key ∈ laid ++ (front ++ [handle])) :
    ∃ picture, (after.adjust handle Picture.issue).find? key = some picture ∧
      (after.adjust handle Picture.issue).Scheduled key picture := by
  rcases List.mem_append.mp member with isLaid | inGroup
  · obtain ⟨picture, found, scheduled⟩ := arranged.scheduled key isLaid
    obtain ⟨same, foundSame, isIssued⟩ := issued key isLaid
    cases find?_unique found foundSame
    obtain ⟨holds, foundAfter⟩ := extension.find?_other found (arranged.laid_apart isLaid)
    refine ⟨_, foundAfter, scheduled.follows, scheduled.kept, fun waiting => ?_⟩
    cases isIssued.symm.trans waiting
  · rcases List.mem_append.mp inGroup with inFront | single
    · obtain ⟨picture, found, placed, _⟩ := extension.spread key inFront
      refine ⟨picture, ?_, placed.scheduled.continues (Picture.Continues.refl picture)
        fun _ _ _ settled => settled_issue settled handle⟩
      rw [find?_adjust_of_ne, found]
      rintro rfl
      exact arranged.front_apart inFront
    · rw [List.mem_singleton.mp single]
      refine ⟨anchor.issue, find?_adjust_self extension.found _, extension.anchored.follows,
        fun _ => extension.anchored.kept, ?_⟩
      simp [Picture.issue]

theorem recents (extension : Extension scheduler window front handle other after anchor last)
    (arranged : scheduler.Arranged window laid (front ++ handle :: back)) {recent : Handle}
    (member : recent ∈ other.past.recent) :
    recent ∈ laid ++ (front ++ [handle]) ∧ ∃ picture,
      (after.adjust handle Picture.issue).find? recent = some picture ∧
        picture.isReference = true ∧ picture.released.indirect = false := by
  rcases extension.succeeds.others recent member with before | rfl
  · obtain ⟨isLaid, picture, found, reference, holding⟩ := arranged.recents recent before
    obtain ⟨holds, foundAfter⟩ := extension.find?_other found (arranged.laid_apart isLaid)
    exact ⟨List.mem_append_left _ isLaid, _, foundAfter, reference, holding⟩
  · obtain ⟨inGroup, picture, found, reference, _⟩ := extension.last_reference
    have waits : recent ∈ front ++ handle :: back := by
      rcases List.mem_append.mp inGroup with inFront | single
      · exact List.mem_append_left _ inFront
      · simp [List.mem_singleton.mp single]
    obtain ⟨old, foundOld, fresh⟩ := arranged.unscheduled recent waits
    obtain ⟨same, foundSame, _, released⟩ := extension.find? foundOld
    cases find?_unique found foundSame
    refine ⟨List.mem_append_right _ inGroup, picture, found, reference, ?_⟩
    rw [released, fresh.released]

end Extension

theorem Arranged.extend (arranged : scheduler.Arranged window laid (front ++ handle :: back))
    (issued : ∀ handle ∈ laid, ∃ picture, window.find? handle = some picture ∧
      picture.issued = true)
    {anchor : Picture ι} {last : Handle}
    (extension : Extension scheduler window front handle other after anchor last) :
    other.Arranged (after.adjust handle Picture.issue) (laid ++ (front ++ [handle])) back := by
  have rewrites := extension.rewrites
  have lastEq : (laid ++ (front ++ [handle])).getLast? = some handle := by
    rw [← List.append_assoc, List.getLast?_append]
    rfl
  constructor
  case handles =>
    rw [handles_adjust, rewrites.handles, arranged.handles]
    simp
  case scheduled => exact fun key member => extension.scheduled arranged issued member
  case unscheduled =>
    intro key member
    obtain ⟨picture, found, fresh⟩ := arranged.unscheduled key (by simp [member])
    obtain ⟨holds, foundAfter⟩ := extension.find?_other found (arranged.back_apart member)
    exact ⟨_, foundAfter, fresh.withHolds holds⟩
  case ordered =>
    rw [handles_adjust, rewrites.handles]
    refine arranged.ordered.imp fun ordered => ordered.carry fun key _ picture found => ?_
    obtain ⟨later, foundLater, order, _⟩ := extension.find? found
    exact ⟨later, foundLater, order⟩
  case bounded =>
    intro key later foundLater
    have live := mem_handles_of_find? foundLater
    rw [handles_adjust, rewrites.handles] at live
    obtain ⟨picture, found⟩ := exists_of_mem_handles live
    obtain ⟨same, foundSame, order, _⟩ := extension.find? found
    cases find?_unique foundLater foundSame
    rw [order, extension.inputOrder]
    exact arranged.bounded key picture found
  case anchor =>
    intro tail tailEq
    rw [lastEq] at tailEq
    cases tailEq
    exact ⟨anchor.issue, find?_adjust_self extension.found _, rfl, extension.reference⟩
  case latest =>
    intro tail tailEq
    rw [lastEq] at tailEq
    cases tailEq
    obtain ⟨_, picture, found, _, keeps⟩ := extension.last_reference
    exact ⟨last, picture, extension.succeeds.ends, found, keeps⟩
  case recents => exact fun recent member => extension.recents arranged member
  case short => exact extension.succeeds.short
  case opening => simp
  case shallow =>
    rw [extension.depth]
    exact arranged.shallow

/-! Runs. -/

theorem nextTop_maxBDepth (gop : Gop) (forced : Bool) (skipped : Nat) :
    (gop.nextTop forced skipped).2.maxBDepth = gop.maxBDepth := by
  unfold Gop.nextTop
  split
  · rfl
  split
  · split <;> rfl
  · rfl

theorem nextTop_bPerGroup (gop : Gop) (forced : Bool) (skipped : Nat) :
    (gop.nextTop forced skipped).2.bPerGroup = gop.bPerGroup := by
  unfold Gop.nextTop
  split
  · rfl
  split
  · split <;> rfl
  · rfl

def typeTop (type : PictureType) (picture : Picture ι) : Picture ι :=
  { picture with type, isReference := true, depth := 0 }

theorem decideType_runs (scheduler : Scheduler) {picture : Picture ι}
    (found : window.find? handle = some picture) (skipped : Nat) :
    Runs (decideType handle skipped) (scheduler, window)
      (.ok (scheduler.gop.nextTop picture.forceIdr skipped).1)
      ({ scheduler with gop := (scheduler.gop.nextTop picture.forceIdr skipped).2 },
        window.adjust handle (typeTop (scheduler.gop.nextTop picture.forceIdr skipped).1)) := by
  refine (fetch_runs found).onSecond.bind ((runs_update _ _).bind ?_)
  exact ((alter_runs found _).onSecond).bind (runs_pure _ _)

structure Opens (window : Window ι) (maxDepth : Nat) (start : Handle) (front : List Handle)
    (handle : Handle) : Prop where
  gap : Gap window (maxDepth - 1) start front handle []
  start : window.Settled 1 start
  anchor : window.Settled 1 handle

theorem layOutGroup_runs {maxDepth : Nat} (live : handle ∈ window.handles)
    (few : laid = [] → front = [])
    (opens : ∀ start, laid.getLast? = some start → Opens window maxDepth start front handle) :
    ∃ after, Runs (layOutGroup maxDepth (groupBefore laid front) handle) window
        (.ok (Mark.last handle (groupMarks maxDepth laid.getLast? front handle))) after ∧
      Tallies window after ∧ Rewrites front window after ∧ Spread after front [handle] ∧
      after.Charted (groupMarks maxDepth laid.getLast? front handle) ∧
      after.Trailed handle (groupMarks maxDepth laid.getLast? front handle) := by
  by_cases empty : front = []
  · subst empty
    have nothing : Runs (layOutGroup maxDepth (groupBefore laid []) handle) window (.ok handle)
        window := by
      unfold layOutGroup groupBefore
      cases laid.getLast? <;> exact runs_pure _ _
    rw [groupMarks_nil]
    exact ⟨window, nothing, Tallies.refl _, Rewrites.refl _ _, by simp [Spread], by simp [Charted],
      trivial⟩
  · cases startEq : laid.getLast? with
    | none => exact absurd (few (List.getLast?_eq_none_iff.mp startEq)) empty
    | some start =>
        obtain ⟨gap, startSettled, anchorSettled⟩ := opens start startEq
        obtain ⟨after, runs, tallies, rewrites, charted, trailed⟩ := chart_runs gap live 1
        have spread : Spread after front [handle] := by
          refine spread_chart charted trailed (startSettled.of_rewrites rewrites gap.fresh)
            (anchorSettled.of_rewrites rewrites gap.fresh) ?_
          rw [rewrites.handles]
          simpa using live
        rw [placement_chart] at runs
        refine ⟨after, ?_, tallies, rewrites, spread, charted, trailed⟩
        have some : 0 < front.length := List.length_pos_iff.mpr empty
        simp only [layOutGroup, groupBefore, startEq, some, if_true, layOut,
          List.isEmpty_eq_false_iff.mpr empty, Bool.false_eq_true, if_false]
        exact runs

theorem onPast_runs {action : Action (PastPictures × Window ι) Unit} {past : PastPictures}
    (runs : Runs action (scheduler.past, window) (.ok ()) (past, after)) :
    Runs (onPast action) (scheduler, window) (.ok ()) ({ scheduler with past }, after) := by
  unfold onPast
  exact Runs.zoom_to (by exact runs) rfl

structure Pickable (scheduler : Scheduler) (window : Window ι) (handle : Handle) : Prop where
  tidy : window.Tidy scheduler.past.recent
  waiting : ∃ picture, window.find? handle = some picture ∧ picture.issued = false
  arranged : ∃ laid fresh, handle ∈ laid ∧
    scheduler.Arranged (window.adjust handle Picture.issue) laid fresh

structure Schedules (scheduler : Scheduler) (window : Window ι) (other : Scheduler)
    (after : Window ι) : Prop where
  inputOrder : other.inputOrder = scheduler.inputOrder
  encodeOrder : other.encodeOrder = scheduler.encodeOrder
  endOfStream : other.endOfStream = scheduler.endOfStream
  bPerGroup : other.gop.bPerGroup = scheduler.gop.bPerGroup
  maxBDepth : other.gop.maxBDepth = scheduler.gop.maxBDepth
  rewrites : ∃ touched, Rewrites touched window after ∧ ∀ handle ∈ touched, ∃ picture,
    window.find? handle = some picture ∧ picture.Fresh

theorem buildTyped_runs (arranged : scheduler.Arranged window laid (front ++ handle :: back))
    (tidy : window.Tidy scheduler.past.recent) {type : PictureType}
    (idr : laid = [] → type = .idr) (skipped : Nat) :
    ∃ after anchor, Runs (scheduler.past.buildAnchor handle laid.getLast? skipped)
        (window.adjust handle (typeTop type)) (.ok ()) after ∧
      after.Exact scheduler.past.recent ∧ Rewrites [handle] window after ∧
      after.find? handle = some anchor ∧ after.Anchored handle anchor ∧
      (anchor.type = type ∧ anchor.depth = 0 ∧ anchor.isReference = true) ∧
      scheduler.past.Predicts window handle laid.getLast? skipped anchor := by
  obtain ⟨picture, found, fresh⟩ := arranged.unscheduled handle (by simp)
  have typing := rewrites_adjust handle (typeTop type) window fun _ => rfl
  have accounted : (window.adjust handle (typeTop type)).Exact scheduler.past.recent :=
    tidy.exact.adjust (fun _ => rfl) fun _ _ => rfl
  have ordered := arranged.ordered
  rw [arranged.handles] at ordered
  have afterLaid : ∀ key ∈ laid, (window.adjust handle (typeTop type)).Before key handle :=
    fun key member =>
      ((List.pairwise_append.mp ordered).2.2 key member handle (by simp)).of_rewrites typing
  have buildable : scheduler.past.Buildable (window.adjust handle (typeTop type)) handle
      laid.getLast? (typeTop type picture) := by
    refine ⟨⟨fresh.past, fresh.future, fresh.dpb, fresh.previous, fresh.released⟩, ?_,
      arranged.short, ?_⟩
    · exact fun recent member => afterLaid recent (arranged.recents recent member).1
    · cases startEq : laid.getLast? with
      | none => exact Or.inl (idr (List.getLast?_eq_none_iff.mp startEq))
      | some start =>
          obtain ⟨recent, _, recentEq, _, _⟩ := arranged.latest start startEq
          exact Or.inr ⟨fun empty => by simp [empty] at recentEq, start, rfl,
            afterLaid start (List.mem_of_getLast? startEq)⟩
  obtain ⟨after, anchor, building, accountedAfter, rewrites, foundAfter, anchored, kind,
      predicts⟩ :=
    PastPictures.buildAnchor_runs accounted (find?_adjust_self found _) buildable skipped
  have aimsEq : scheduler.past.aims (window.adjust handle (typeTop type)) handle laid.getLast? =
      scheduler.past.aims window handle laid.getLast? := by
    rw [PastPictures.aims, PastPictures.aims, typing.orderOf]
  obtain ⟨references, unnamed, previous, kept, dpb, apart, orders⟩ := predicts
  rw [typing.orderOf, aimsEq] at references orders
  exact ⟨after, anchor, building, accountedAfter, typing.trans rewrites, foundAfter, anchored, kind,
    references, unnamed, previous, kept, dpb, apart, orders⟩

theorem opens_of_anchor (arranged : scheduler.Arranged window laid (front ++ handle :: back))
    (issued : ∀ handle ∈ laid, ∃ picture, window.find? handle = some picture ∧
      picture.issued = true)
    (rewrites : Rewrites [handle] window after) {anchor : Picture ι}
    (found : after.find? handle = some anchor) (anchored : after.Anchored handle anchor)
    (top : anchor.depth = 0) {start : Handle} (startEq : laid.getLast? = some start) :
    Opens after scheduler.gop.maxBDepth start front handle := by
  have isLaid := List.mem_of_getLast? startEq
  have ordered := arranged.ordered
  rw [arranged.handles] at ordered
  have frontApart := arranged.front_apart
  have laidApart := arranged.laid_apart isLaid
  obtain ⟨old, foundOld, isIssued⟩ := issued start isLaid
  obtain ⟨_, foundStart⟩ := rewrites.find?_other foundOld fun single =>
    laidApart (List.mem_append_right _ single)
  obtain ⟨init, rfl⟩ := List.getLast?_eq_some_iff.mp startEq
  have shallow := arranged.shallow
  have gap : Gap after (scheduler.gop.maxBDepth - 1) start front handle [] := {
    ordered := (ordered.sublist (by simp)).imp fun before => before.of_rewrites rewrites
    fresh := fresh_of_rewrites rewrites
      (fun key member => arranged.unscheduled key (by simp [member])) (by grind)
    leads := ⟨anchor, found, anchored.last⟩
    apart := by simp
    room := by simp only [List.length_nil, maxDpbSize] at shallow ⊢; omega }
  exact ⟨gap, ⟨_, foundStart, Or.inl isIssued⟩, anchor, found, Or.inr
    ⟨by simp [Picture.held, List.ne_nil_of_mem anchored.kept], by simp [top]⟩⟩

theorem extension_of_layout {w₁ w₂ w₃ : Window ι} {anchor : Picture ι} {last : Handle}
    {rest : List Handle} (building : Rewrites [handle] window w₁)
    (found : w₁.find? handle = some anchor) (anchored : w₁.Anchored handle anchor)
    (reference : anchor.isReference = true) (layout : Rewrites front w₁ w₂)
    (spread : Spread w₂ front [handle]) (follows : Follows w₂ front handle last)
    (apart : handle ∉ front) (bare : w₃.bare = w₂.bare)
    (subset : ∀ recent ∈ rest, recent ∈ scheduler.past.recent)
    (fewer : rest.length < maxListReferences) (gop : Gop)
    (depth : gop.maxBDepth = scheduler.gop.maxBDepth) :
    ∃ holds, Extension scheduler window front handle
      { scheduler with gop, past := ⟨rest ++ [last], scheduler.past.multiReference⟩ } w₃
      (anchor.withHolds holds) last := by
  have keeping := rewrites_of_bare_eq bare
  have handlesEq : w₃.handles = w₁.handles := keeping.handles.trans layout.handles
  obtain ⟨_, found₂⟩ := layout.find?_other found apart
  obtain ⟨holds, found₃⟩ := keeping.find?_other found₂ List.not_mem_nil
  refine ⟨holds, ?_, ?_, found₃, anchored.withHolds handlesEq holds, reference, ?_, ?_, rfl, depth⟩
  · exact (building.mono (by simp)).trans
      ((layout.mono (by simp +contextual)).trans (keeping.mono (by simp)))
  · exact spread.of_rewrites keeping (by simp) (by simp)
  · refine follows.imp_right ?_
    rintro ⟨member, old, foundLast, isReference⟩
    obtain ⟨_, foundAfter⟩ := keeping.find?_other foundLast List.not_mem_nil
    exact ⟨member, _, foundAfter, isReference⟩
  · refine ⟨by simp, fun recent member => ?_, ?_⟩
    · rcases List.mem_append.mp member with member | single
      · exact Or.inl (subset recent member)
      · exact Or.inr (List.mem_singleton.mp single)
    · show (rest ++ [last]).length ≤ maxListReferences
      rw [List.length_append, List.length_singleton]
      omega

theorem Extension.tidy {anchor : Picture ι} {last : Handle}
    (extension : Extension scheduler window front handle other after anchor last)
    (tidy : window.Tidy scheduler.past.recent)
    (accounted : after.Exact other.past.recent) : after.Tidy other.past.recent := by
  refine tidy.of_rewrites extension.rewrites accounted fun key member current foundKey => ?_
  rcases List.mem_append.mp member with inFront | single
  · obtain ⟨same, foundSame, placed, _⟩ := extension.spread key inFront
    cases find?_unique foundKey foundSame
    exact placed.live
  · rw [List.mem_singleton.mp single] at foundKey
    cases find?_unique extension.found foundKey
    exact extension.anchored.live

structure Groups (scheduler : Scheduler) (window : Window ι) (start : Option Handle)
    (front : List Handle) (handle : Handle) (forced : Bool) (other : Scheduler)
    (after : Window ι) : Prop where
  gop : other.gop = (scheduler.gop.nextTop forced front.length).2
  multiReference : other.past.multiReference = scheduler.past.multiReference
  anchor : ∃ anchor, after.find? handle = some anchor ∧
    anchor.type = (scheduler.gop.nextTop forced front.length).1 ∧ anchor.depth = 0 ∧
    anchor.isReference = true ∧ anchor.future = [] ∧
    scheduler.past.Predicts window handle start front.length anchor
  charted : after.Charted (groupMarks scheduler.gop.maxBDepth start front handle)
  trailed : after.Trailed handle (groupMarks scheduler.gop.maxBDepth start front handle)
  recent : other.past.recent =
    PastPictures.room (lastType (scheduler.gop.nextTop forced front.length).1
        (groupMarks scheduler.gop.maxBDepth start front handle)) scheduler.past.recent ++
      [Mark.last handle (groupMarks scheduler.gop.maxBDepth start front handle)]
  rewrites : Rewrites (front ++ [handle]) window after

theorem find?_last {marks : List (Mark Handle)} {before : Window ι} {anchor : Picture ι}
    (found : before.find? handle = some anchor) (rewrites : Rewrites front before window)
    (apart : handle ∉ front) (charted : window.Charted marks) :
    ∃ picture, window.find? (Mark.last handle marks) = some picture ∧
      picture.type = lastType anchor.type marks := by
  rcases Mark.last_cases handle marks with ⟨none, same⟩ | ⟨some, mark, member, _, same⟩
  · obtain ⟨holds, foundAfter⟩ := rewrites.find?_other found apart
    rw [same, lastType, if_neg (by simp [none])]
    exact ⟨_, foundAfter, rfl⟩
  · obtain ⟨picture, foundMark, describes⟩ := charted mark member
    rw [← same, lastType, if_pos some]
    exact ⟨picture, foundMark, describes.type⟩

theorem takeAnchor_ok (arranged : scheduler.Arranged window laid (front ++ handle :: back))
    (tidy : window.Tidy scheduler.past.recent)
    (issued : ∀ handle ∈ laid, ∃ picture, window.find? handle = some picture ∧
      picture.issued = true)
    (opens : laid = [] → front = [] ∧ ∃ picture, window.find? handle = some picture ∧
      picture.forceIdr = true) {picture : Picture ι} (found : window.find? handle = some picture) :
    ∃ other after, Runs (takeAnchor (groupBefore laid front) handle) (scheduler, window) (.ok ())
        (other, after) ∧
      Schedules scheduler window other after ∧ Pickable other after handle ∧
      Groups scheduler window laid.getLast? front handle picture.forceIdr other after ∧
      other.Arranged (after.adjust handle Picture.issue) (laid ++ (front ++ [handle])) back := by
  obtain ⟨same, foundSame, fresh⟩ := arranged.unscheduled handle (by simp)
  cases find?_unique found foundSame
  have typing := decideType_runs scheduler found front.length
  have depthEq := nextTop_maxBDepth scheduler.gop picture.forceIdr front.length
  have sizeEq := nextTop_bPerGroup scheduler.gop picture.forceIdr front.length
  have idr : laid = [] → (scheduler.gop.nextTop picture.forceIdr front.length).1 = .idr := by
    intro empty
    obtain ⟨_, same, foundSame, forced⟩ := opens empty
    cases find?_unique found foundSame
    rw [forced]
    rfl
  generalize decidedEq : scheduler.gop.nextTop picture.forceIdr front.length = decided at *
  obtain ⟨w₁, anchor, building, accounted₁, rewrites₁, found₁, anchored, ⟨typed, top, reference⟩,
      predicts⟩ := buildTyped_runs arranged tidy idr front.length
  obtain ⟨w₂, laying, tallies₂, rewrites₂, spread, charted, trailed⟩ :=
    layOutGroup_runs (mem_handles_of_find? found₁) (fun empty => (opens empty).1)
      fun start startEq =>
        opens_of_anchor arranged issued rewrites₁ found₁ anchored top startEq
  have recentLive : ∀ recent ∈ scheduler.past.recent, recent ∈ w₂.handles := by
    rw [rewrites₂.handles, rewrites₁.handles, arranged.handles]
    exact fun recent member => List.mem_append_left _ (arranged.recents recent member).1
  obtain ⟨lastPicture, foundLast, lastTyped⟩ :=
    find?_last found₁ rewrites₂ arranged.front_apart charted
  rw [typed] at lastTyped
  obtain ⟨w₃, adding, accounted₃, bare, fewer⟩ :=
    PastPictures.addRecent_runs (tallies₂ _ accounted₁) recentLive arranged.short foundLast
  rw [lastTyped] at adding accounted₃ fewer
  have follows : Follows w₂ front handle
      (Mark.last handle (groupMarks scheduler.gop.maxBDepth laid.getLast? front handle)) :=
    Follows.of_charted charted (groupMarks_inside _ _ _ _)
  obtain ⟨holds, extension⟩ := extension_of_layout rewrites₁ found₁ anchored reference rewrites₂
    spread follows arranged.front_apart bare (PastPictures.room_subset _ _) fewer decided.2 depthEq
  have keeping := rewrites_of_bare_eq bare
  have extended := arranged.extend issued extension
  refine ⟨{ scheduler with
      gop := decided.2
      past := ⟨_, scheduler.past.multiReference⟩ }, w₃, ?_,
    ⟨rfl, rfl, rfl, sizeEq, depthEq, _, extension.rewrites, fun key member => ?_⟩,
    ⟨extension.tidy tidy accounted₃, ?_, _, back, ?_, extended⟩, ⟨?_, rfl, ?_, ?_, ?_, ?_, ?_⟩,
    extended⟩
  · refine typing.bind ?_
    rw [if_neg (fun refused => refused.1 (idr (List.getLast?_eq_none_iff.mp refused.2)))]
    refine (runs_get _).bind (building.onSecond.bind ?_)
    have layingNext : Runs (layOutGroup decided.2.maxBDepth (groupBefore laid front) handle) w₁
        (.ok (Mark.last handle (groupMarks scheduler.gop.maxBDepth laid.getLast? front handle)))
        w₂ := by
      rw [depthEq]
      exact laying
    exact layingNext.onSecond.bind (onPast_runs adding)
  · refine arranged.unscheduled key ?_
    rcases List.mem_append.mp member with inFront | single
    · simp [inFront]
    · simp [List.mem_singleton.mp single]
  · obtain ⟨later, foundLater, same⟩ := extension.rewrites.find? found
    exact ⟨later, foundLater, (congrArg Picture.issued same :).trans fresh.waiting⟩
  · simp
  · rw [decidedEq]
  · rw [decidedEq]
    exact ⟨_, extension.found, typed, top, reference, anchored.last, predicts.references,
      predicts.apart, predicts.previous, predicts.dpb⟩
  · exact charted.of_rewrites keeping (by simp)
  · exact trailed.of_rewrites keeping (by simp)
  · rw [decidedEq]
  · exact extension.rewrites

inductive Picked (scheduler : Scheduler) (window : Window ι) : Pick → Scheduler → Window ι → Prop
    where
  | picture {handle : Handle} {other : Scheduler} {after : Window ι}
      (schedules : Schedules scheduler window other after)
      (pickable : Pickable other after handle) : Picked scheduler window (.picture handle) other after
  | needMoreInput (goesOn : scheduler.endOfStream = false)
      (few : window.pictures.countP (fun picture => !picture.issued) ≤ scheduler.gop.bPerGroup ∨
        scheduler.awaitsTimestamps = true) :
      Picked scheduler window .needMoreInput scheduler window
  | pending (ended : scheduler.endOfStream = true)
      (none : window.pictures.countP (fun picture => !picture.issued) = 0) {tail : Handle}
      {picture : Picture ι} (found : window.find? tail = some picture)
      (issued : picture.issued = true) (incomplete : picture.complete = false) :
      Picked scheduler window .pending scheduler window
  | endOfStream (ended : scheduler.endOfStream = true)
      (issued : ∀ handle picture, window.find? handle = some picture → picture.issued = true) :
      Picked scheduler window .endOfStream scheduler window

def takeNextAnchor : Except Pick (Group × Handle) → Action (Scheduler × Window ι) Pick
  | .error pick => return pick
  | .ok (group, handle) => do
    takeAnchor group handle
    return .picture handle

theorem pickNext_runs {result : Except EncodeError Pick} {after : Scheduler × Window ι}
    (none : readyB window window.entries = .ok none)
    (taking : Runs (takeNextAnchor (scheduler.nextAnchor window)) (scheduler, window) result after) :
    Runs pickNext (scheduler, window) result after := by
  refine (runs_get _).bind ((runs_ofExcept_ok none _).bind ?_)
  dsimp only
  generalize scheduler.nextAnchor window = chosen at taking ⊢
  rcases chosen with pick | ⟨group, handle⟩ <;> exact taking

theorem pickNext_ok (arranged : scheduler.Arranged window laid fresh)
    (tidy : window.Tidy scheduler.past.recent) :
    ∃ pick other after, Runs pickNext (scheduler, window) (.ok pick) (other, after) ∧
      Picked scheduler window pick other after := by
  have entryOf : ∀ entry ∈ window.entries, window.find? entry.1 = some entry.2 :=
    fun entry member => find?_of_mem_entries member
  have live : ∀ entry ∈ window.entries, entry.2.issued = false → ∀ target ∈ entry.2.held,
      target ∈ window.handles := by
    intro entry member waiting
    have found := entryOf entry member
    exact tidy.held_live_of_incomplete found ((tidy.consistent _ _ found).incomplete waiting)
  obtain ⟨answer, searched, readied⟩ := readyB_ok live
  cases readied with
  | @ready handle picture member waiting typed =>
      have found := entryOf _ member
      refine ⟨.picture handle, scheduler, window, ?_, .picture ⟨rfl, rfl, rfl, rfl, rfl, [],
        Rewrites.refl _ _, by simp⟩ ⟨tidy, ⟨picture, found, waiting⟩, laid, fresh, ?_⟩⟩
      · exact (runs_get _).bind ((runs_ofExcept_ok searched _).bind (runs_pure _ _))
      · have apart : handle ∉ fresh := by
          intro isFresh
          obtain ⟨same, foundSame, fresh⟩ := arranged.unscheduled handle isFresh
          cases find?_unique found foundSame
          rw [fresh.type] at typed
          cases typed
        have isLaid : handle ∈ laid := by
          have present := mem_handles_of_find? found
          rw [arranged.handles] at present
          exact (List.mem_append.mp present).resolve_right apart
        exact ⟨isLaid, arranged.adjust isLaid apart Picture.continues_issue fun _ => rfl⟩
  | none blocked =>
      have issued := arranged.issued_of_none blocked
      have anchoring := arranged.nextAnchor_ok tidy issued
      have taking : ∀ {pick : Pick} {other : Scheduler} {after : Window ι},
          Runs (takeNextAnchor (scheduler.nextAnchor window)) (scheduler, window) (.ok pick)
            (other, after) → Runs pickNext (scheduler, window) (.ok pick) (other, after) :=
        pickNext_runs searched
      generalize scheduler.nextAnchor window = chosen at anchoring taking
      cases anchoring with
      | found front handle back split opens =>
          subst split
          obtain ⟨picture, foundAnchor, _⟩ := arranged.unscheduled handle (by simp)
          obtain ⟨other, after, runs, schedules, pickable, _⟩ :=
            takeAnchor_ok arranged tidy issued opens foundAnchor
          exact ⟨_, other, after, taking (runs.bind (runs_pure _ _)), .picture schedules pickable⟩
      | needMoreInput goesOn few =>
          rw [← arranged.count_unissued issued] at few
          exact ⟨_, _, _, taking (runs_pure _ _), .needMoreInput goesOn few⟩
      | pending ended none tail picture found isIssued incomplete =>
          have counted := arranged.count_unissued issued
          rw [none] at counted
          exact ⟨_, _, _, taking (runs_pure _ _), .pending ended counted found isIssued incomplete⟩
      | endOfStream ended nothing =>
          refine ⟨_, _, _, taking (runs_pure _ _), .endOfStream ended fun handle picture found => ?_⟩
          have present := mem_handles_of_find? found
          rw [arranged.handles, nothing, List.append_nil] at present
          obtain ⟨same, foundSame, isIssued⟩ := issued handle present
          cases find?_unique found foundSame
          exact isIssued

end Scheduler

end VideoSchedule

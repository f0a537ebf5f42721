import VideoSchedule.Prediction.Anchor
import VideoSchedule.Proofs.Hierarchy

/-!
Anchors and past pictures. An anchor can be built from any past pictures that are displayed before
it, and taking a picture among the past ones or letting go of one moves exactly one direct hold.
-/

namespace VideoSchedule

open VideoSchedule.Action Prediction

structure Window.Anchored {ι : Type} (window : Window ι) (handle : Handle) (picture : Picture ι) :
    Prop where
  kept : handle ∈ picture.dpb
  last : picture.future = []
  follows : picture.type = .idr ∨ picture.previous.isSome = true
  live : ∀ target ∈ picture.held, target ∈ window.handles

theorem Window.Anchored.withHolds {ι : Type} {before after : Window ι} {handle : Handle}
    {picture : Picture ι} (anchored : before.Anchored handle picture)
    (handles : after.handles = before.handles) (holds : PerLevel Nat) :
    after.Anchored handle (picture.withHolds holds) := by
  refine ⟨anchored.kept, anchored.last, anchored.follows, ?_⟩
  rw [handles]
  exact anchored.live

namespace PastPictures

open Window

variable {ι : Type} {window : Window ι} {past : PastPictures}

theorem insertByDistance_perm (order : Nat) (candidate : Handle × Nat)
    (candidates : List (Handle × Nat)) :
    (insertByDistance order candidate candidates).Perm (candidate :: candidates) := by
  induction candidates with
  | nil => exact List.Perm.refl _
  | cons next rest ih =>
      rw [insertByDistance]
      split
      · exact List.Perm.refl _
      · exact (ih.cons next).trans (List.Perm.swap candidate next rest)

theorem sortByDistance_perm (order : Nat) (candidates : List (Handle × Nat)) :
    (sortByDistance order candidates).Perm candidates := by
  induction candidates with
  | nil => exact List.Perm.refl _
  | cons candidate rest ih => exact (insertByDistance_perm _ _ _).trans (ih.cons candidate)

def insertOrder (order candidate : Nat) : List Nat → List Nat
  | [] => [candidate]
  | next :: rest =>
    if precedes order candidate next then candidate :: next :: rest
    else next :: insertOrder order candidate rest

def nearest (order : Nat) (candidates : List Nat) : List Nat :=
  candidates.foldr (insertOrder order) []

theorem orders_insertByDistance (order : Nat) (candidate : Handle × Nat)
    (candidates : List (Handle × Nat)) :
    (insertByDistance order candidate candidates).map Prod.snd =
      insertOrder order candidate.2 (candidates.map Prod.snd) := by
  induction candidates with
  | nil => rfl
  | cons next rest ih =>
      rw [insertByDistance, List.map_cons, insertOrder]
      split
      · rfl
      · rw [List.map_cons, ih]

theorem orders_sortByDistance (order : Nat) (candidates : List (Handle × Nat)) :
    (sortByDistance order candidates).map Prod.snd = nearest order (candidates.map Prod.snd) := by
  induction candidates with
  | nil => rfl
  | cons candidate rest ih =>
      refine (orders_insertByDistance order candidate (sortByDistance order rest)).trans ?_
      rw [ih]
      rfl

theorem withOrders_ok {handles : List Handle} (live : ∀ handle ∈ handles, handle ∈ window.handles) :
    ∃ candidates, withOrders window handles = .ok candidates ∧
      candidates.map Prod.fst = handles ∧
      ∀ candidate ∈ candidates, candidate.2 = window.orderOf candidate.1 := by
  induction handles with
  | nil => exact ⟨[], rfl, rfl, by simp⟩
  | cons handle rest ih =>
      obtain ⟨picture, found⟩ := exists_of_mem_handles (live handle (List.mem_cons_self ..))
      obtain ⟨candidates, listed, same, orders⟩ :=
        ih fun other member => live other (List.mem_cons_of_mem _ member)
      refine ⟨(handle, picture.displayOrder) :: candidates, ?_, by simp [same], ?_⟩
      · simp [withOrders, found, listed, Except.map]
      · simp only [List.mem_cons, forall_eq_or_imp]
        exact ⟨(orderOf_of_find? found).symm, orders⟩

def aims (past : PastPictures) (window : Window ι) (handle : Handle) (start : Option Handle) :
    List Nat :=
  if past.multiReference then nearest (window.orderOf handle) (past.recent.map window.orderOf)
  else start.toList.map window.orderOf

theorem nearestFirst_runs {handle : Handle} {picture : Picture ι}
    (found : window.find? handle = some picture)
    (live : ∀ recent ∈ past.recent, recent ∈ window.handles) :
    ∃ targets, Runs (past.nearestFirst handle) window (.ok targets) window ∧
      targets.Perm past.recent ∧
      targets.map window.orderOf =
        nearest (window.orderOf handle) (past.recent.map window.orderOf) := by
  obtain ⟨candidates, listed, same, orders⟩ := withOrders_ok live
  have sorted := sortByDistance_perm picture.displayOrder candidates
  have ordersOf : ∀ pairs : List (Handle × Nat),
      (∀ pair ∈ pairs, pair.2 = window.orderOf pair.1) →
        (pairs.map Prod.fst).map window.orderOf = pairs.map Prod.snd := by
    intro pairs known
    rw [List.map_map]
    exact List.map_congr_left fun pair member => (known pair member).symm
  refine ⟨(sortByDistance picture.displayOrder candidates).map Prod.fst, ?_, ?_, ?_⟩
  · refine (runs_get _).bind ((fetch_runs found).bind ?_)
    exact (runs_ofExcept_ok listed _).bind (runs_pure _ _)
  · rw [← same]
    exact sorted.map _
  · rw [ordersOf _ fun pair member => orders pair (sorted.mem_iff.mp member),
      orders_sortByDistance, ← same, ordersOf _ orders, orderOf_of_find? found]

/-- What an anchor needs: a blank picture that is displayed after all past pictures, and unless it is
an IDR picture something to follow. -/
structure Buildable (past : PastPictures) (window : Window ι) (handle : Handle)
    (start : Option Handle) (picture : Picture ι) : Prop where
  blank : picture.Blank
  afterRecent : ∀ recent ∈ past.recent, window.Before recent handle
  short : past.recent.length ≤ maxListReferences
  follows : picture.type = .idr ∨
    past.recent ≠ [] ∧ ∃ before, start = some before ∧ window.Before before handle

theorem addTargets_runs (accounted : window.Exact past.recent) {handle before : Handle}
    {picture : Picture ι} (found : window.find? handle = some picture)
    (released : picture.released = ⟨false, false⟩) (noPast : picture.past = [])
    (noFuture : picture.future = []) (dpb : picture.dpb.length ≤ 1)
    (afterRecent : ∀ recent ∈ past.recent, window.Before recent handle)
    (short : past.recent.length ≤ maxListReferences) (afterStart : window.Before before handle)
    (roles : Roles) (noPrevious : roles.previous = false) :
    ∃ after holds targets,
      Runs (past.addTargets handle (some before) roles) window (.ok ()) after ∧
      after.Exact past.recent ∧ Rewrites [handle] window after ∧
      after.find? handle = some ((picture.refer (if roles.reference then targets else [])
        (if roles.dpb then targets else [])).withHolds holds) ∧
      (∀ target ∈ targets, window.Before target handle) ∧
      targets.map window.orderOf = past.aims window handle (some before) := by
  have earlier : ∀ target, window.Before target handle → ∃ named,
      window.find? target = some named ∧
        (roles.reference = true → named.displayOrder < picture.displayOrder) := by
    intro target ordered
    obtain ⟨named, other, foundNamed, foundOther, less⟩ := ordered
    cases find?_unique found foundOther
    exact ⟨named, foundNamed, fun _ => less⟩
  have naming : ∀ targets : List Handle, (∀ target ∈ targets, window.Before target handle) →
      targets.length ≤ maxListReferences → ∃ after holds,
        Runs (targets.forM fun target => addReference handle target roles) window (.ok ()) after ∧
        after.Exact past.recent ∧ Rewrites [handle] window after ∧
        after.find? handle = some ((picture.refer (if roles.reference then targets else [])
          (if roles.dpb then targets else [])).withHolds holds) := by
    intro targets ordered few
    obtain ⟨after, holds, runs, tallies, rewrites, foundAfter⟩ :=
      forM_addReference_tallies roles noPrevious targets found released
        (fun target member => earlier target (ordered target member))
        (fun _ => ⟨by simpa [noPast] using few, noFuture⟩) (fun _ => by
          simp only [maxListReferences, maxDpbSize] at few ⊢
          omega)
    exact ⟨after, holds, runs, tallies _ accounted, rewrites, foundAfter⟩
  cases multi : past.multiReference with
  | true =>
      obtain ⟨targets, sorting, permuted, orders⟩ :=
        nearestFirst_runs found fun recent member => (afterRecent recent member).mem_left
      have ordered : ∀ target ∈ targets, window.Before target handle :=
        fun target member => afterRecent target (permuted.mem_iff.mp member)
      obtain ⟨after, holds, runs, afterAccounted, rewrites, foundAfter⟩ :=
        naming targets ordered (by rwa [permuted.length_eq])
      refine ⟨after, holds, targets, ?_, afterAccounted, rewrites, foundAfter, ordered, ?_⟩
      · rw [addTargets, if_pos multi]
        exact sorting.bind runs
      · rw [aims, if_pos multi, orders]
  | false =>
      have ordered : ∀ target ∈ [before], window.Before target handle := by
        intro target member
        rwa [List.mem_singleton.mp member]
      obtain ⟨after, holds, runs, afterAccounted, rewrites, foundAfter⟩ :=
        naming [before] ordered (by simp [maxListReferences])
      refine ⟨after, holds, [before], ?_, afterAccounted, rewrites, foundAfter, ordered, ?_⟩
      · rw [addTargets, if_neg (by simp [multi])]
        simpa [List.forM] using runs
      · simp [aims, multi]

structure Predicts (past : PastPictures) (window : Window ι) (handle : Handle)
    (start : Option Handle) (skipped : Nat) (picture : Picture ι) : Prop where
  references : picture.past.map window.orderOf =
    if picture.type.isKey then [] else past.aims window handle start
  apart : handle ∉ picture.past
  previous : picture.previous = if picture.type = .idr then none else past.recent.getLast?
  dpb : ∃ kept, picture.dpb = handle :: kept ∧ handle ∉ kept ∧ kept.map window.orderOf =
    if picture.type = .idr ∨ skipped = 0 then [] else past.aims window handle start

theorem followPast_runs (accounted : window.Exact past.recent) {handle before : Handle}
    {picture : Picture ι} (found : window.find? handle = some picture)
    (released : picture.released = ⟨false, false⟩) (noPast : picture.past = [])
    (noFuture : picture.future = []) (noPrevious : picture.previous = none)
    (kept : picture.dpb = [handle])
    (afterRecent : ∀ recent ∈ past.recent, window.Before recent handle)
    (short : past.recent.length ≤ maxListReferences) (afterStart : window.Before before handle)
    (roles : Roles) (plain : roles.previous = false) {recent : Handle}
    (recentEq : past.recent.getLast? = some recent) :
    ∃ after current targets, Runs (do
        past.addTargets handle (some before) roles
        let previous ← Action.require past.recent.getLast? .invalidReferenceState
        addReference handle previous { previous := true }) window (.ok ()) after ∧
      after.Exact past.recent ∧ Rewrites [handle] window after ∧
      after.find? handle = some current ∧ after.Anchored handle current ∧
      (current.type = picture.type ∧ current.depth = picture.depth ∧
        current.isReference = picture.isReference) ∧
      current.past = (if roles.reference then targets else []) ∧
      current.previous = some recent ∧
      current.dpb = handle :: (if roles.dpb then targets else []) ∧
      handle ∉ targets ∧ targets.map window.orderOf = past.aims window handle (some before) := by
  obtain ⟨w₁, holds₁, targets, runs₁, accounted₁, rewrites₁, found₁, ordered, orders⟩ :=
    addTargets_runs accounted found released noPast noFuture (by simp [kept]) afterRecent short
      afterStart roles plain
  have recentLive : recent ∈ window.handles :=
    (afterRecent recent (List.mem_of_getLast? recentEq)).mem_left
  obtain ⟨_, foundRecent⟩ := exists_of_mem_handles (rewrites₁.handles.symm ▸ recentLive)
  obtain ⟨w₂, holds₂, runs₂, tallies₂, rewrites₂, found₂⟩ :=
    addReference_tallies { previous := true } found₁ foundRecent released
      (by simp) (by simp) (fun _ => noPrevious)
  rw [Hierarchy.enter_previous] at found₂
  have rewrites := rewrites₁.trans rewrites₂
  refine ⟨w₂, _, targets, runs₁.bind ((runs_require recentEq _ _).bind runs₂),
    tallies₂ _ accounted₁, rewrites, found₂,
    ⟨by simp [Picture.withHolds, Picture.refer, kept], noFuture, Or.inr rfl, ?_⟩,
    ⟨rfl, rfl, rfl⟩, by simp [Picture.withHolds, Picture.refer, noPast], rfl,
    by simp [Picture.withHolds, Picture.refer, kept],
    fun member => (ordered handle member).ne rfl, orders⟩
  rw [rewrites.handles]
  intro target member
  have cases : target ∈ targets ∨ target = handle ∨ target = recent := by
    simp only [Picture.held, Picture.withHolds, Picture.refer, noPast, noFuture, kept] at member
    cases roles.reference <;> cases roles.dpb <;> simp at member <;> tauto
  rcases cases with listed | rfl | rfl
  · exact (ordered target listed).mem_left
  · exact mem_handles_of_find? found
  · exact recentLive

theorem buildAnchor_runs (accounted : window.Exact past.recent) {handle : Handle}
    {start : Option Handle} {picture : Picture ι} (found : window.find? handle = some picture)
    (buildable : past.Buildable window handle start picture) (skipped : Nat) :
    ∃ after current, Runs (past.buildAnchor handle start skipped) window (.ok ()) after ∧
      after.Exact past.recent ∧ Rewrites [handle] window after ∧
      after.find? handle = some current ∧ after.Anchored handle current ∧
      (current.type = picture.type ∧ current.depth = picture.depth ∧
        current.isReference = picture.isReference) ∧
      past.Predicts window handle start skipped current := by
  obtain ⟨blank, afterRecent, short, follows⟩ := buildable
  obtain ⟨w₁, holds₁, runs₁, tallies₁, rewrites₁, found₁⟩ :=
    addReference_tallies { dpb := true } found found blank.released
      (by simp) (by simp [blank.dpb, maxDpbSize]) (by simp)
  have accounted₁ := tallies₁ _ accounted
  rw [Hierarchy.enter_dpb] at found₁
  have kept : (picture.refer [] [handle]).dpb = [handle] := by simp [Picture.refer, blank.dpb]
  have noPast : (picture.refer [] [handle]).past = [] := by simp [Picture.refer, blank.past]
  by_cases idr : picture.type = .idr
  · refine ⟨w₁, _, runs₁.bind ((fetch_runs found₁).bind ?_), accounted₁, rewrites₁, found₁,
      ⟨by simp [Picture.withHolds, kept], blank.future, Or.inl idr, ?_⟩, ⟨rfl, rfl, rfl⟩, ?_⟩
    · have idr₁ : ((picture.refer [] [handle]).withHolds holds₁).type = .idr := idr
      rw [if_pos idr₁]
      exact runs_pure _ _
    · rw [rewrites₁.handles]
      simp [Picture.held, Picture.withHolds, Picture.refer, blank.past, blank.future, blank.dpb,
        blank.previous, mem_handles_of_find? found]
    · refine ⟨?_, by simp [Picture.withHolds, noPast], ?_, [], kept, by simp, ?_⟩
      · have keyed : ((picture.refer [] [handle]).withHolds holds₁).type.isKey = true := by
          have typeEq : ((picture.refer [] [handle]).withHolds holds₁).type = .idr := idr
          rw [typeEq]
          rfl
        rw [if_pos keyed]
        simp [Picture.withHolds, noPast]
      · have typeEq : ((picture.refer [] [handle]).withHolds holds₁).type = .idr := idr
        rw [if_pos typeEq]
        exact blank.previous
      · have typeEq : ((picture.refer [] [handle]).withHolds holds₁).type = .idr := idr
        rw [if_pos (Or.inl typeEq)]
        rfl
  · obtain ⟨some₁, before, rfl, afterStart⟩ := follows.resolve_left idr
    obtain ⟨recent, recentEq⟩ : ∃ recent, past.recent.getLast? = some recent :=
      ⟨_, List.getLast?_eq_some_getLast some₁⟩
    obtain ⟨w₂, current, targets, runs₂, accounted₂, rewrites₂, found₂, anchored, same, pastEq,
        previousEq, dpbEq, apart, orders⟩ :=
      followPast_runs accounted₁ found₁ blank.released noPast blank.future blank.previous kept
        (fun recent member => (afterRecent recent member).of_rewrites rewrites₁) short
        (afterStart.of_rewrites rewrites₁)
        { reference := !picture.type.isKey, dpb := decide (0 < skipped) } rfl recentEq
    have aimsEq : past.aims w₁ handle (some before) = past.aims window handle (some before) := by
      rw [aims, aims, rewrites₁.orderOf]
    rw [rewrites₁.orderOf, aimsEq] at orders
    refine ⟨w₂, current, runs₁.bind ((fetch_runs found₁).bind ?_), accounted₂,
      rewrites₁.trans rewrites₂, found₂, anchored, same, ?_, ?_, ?_, _, dpbEq, ?_, ?_⟩
    · have notIdr : ((picture.refer [] [handle]).withHolds holds₁).type ≠ .idr := idr
      rw [if_neg notIdr]
      exact runs₂
    · have typeEq : current.type = picture.type := same.1
      rw [pastEq, typeEq]
      cases picture.type.isKey <;> simp [orders]
    · rw [pastEq]
      split
      · exact apart
      · simp
    · have typeEq : current.type = picture.type := same.1
      rw [previousEq, typeEq, if_neg idr, recentEq]
    · split
      · exact apart
      · simp
    · have typeEq : current.type = picture.type := same.1
      rw [typeEq]
      by_cases waiting : skipped = 0
      · simp [waiting]
      · simp [waiting, idr, orders, Nat.pos_of_ne_zero waiting]

/-! Past pictures. -/

theorem exact_lower {targets rest : List Handle} (accounted : window.Exact (targets ++ rest)) :
    (window.lower .direct targets).Exact rest := by
  intro level
  cases level with
  | direct => exact (accounted .direct).lower
  | indirect => exact (accounted .indirect).lower_other (by simp) targets

theorem exact_hold {recent : List Handle} (accounted : window.Exact recent)
    (handle : Handle) : (window.adjust handle (·.hold .direct)).Exact (recent ++ [handle]) := by
  intro level other picture found
  have claimsEq : (window.adjust handle (·.hold .direct)).claims level = window.claims level := by
    rw [adjust_eq_each]
    apply claims_each
    intro other picture
    split <;> rfl
  rw [claimsEq]
  rw [find?_adjust] at found
  by_cases same : other = handle
  · rw [if_pos same, Option.map_eq_some_iff] at found
    obtain ⟨old, foundOld, rfl⟩ := found
    have exact := accounted level other old foundOld
    cases level with
    | direct =>
        simp [PerLevel.get, outside, Picture.hold, PerLevel.set, same] at exact ⊢
        omega
    | indirect => simpa [PerLevel.get, outside, Picture.hold, PerLevel.set] using exact
  · rw [if_neg same] at found
    have exact := accounted level other picture found
    cases level with
    | direct =>
        have apart : [handle].count other = 0 :=
          List.count_eq_zero.mpr (by simpa using same)
        simp only [outside, List.count_append, apart] at exact ⊢
        exact exact
    | indirect => exact exact

theorem unhold_recent_runs {targets rest : List Handle}
    (accounted : window.Exact (targets ++ rest))
    (live : ∀ target ∈ targets, target ∈ window.handles) (past : PastPictures) :
    Runs (targets.forM fun handle => onSecond (unhold .direct handle)) (past, window) (.ok ())
      (past, window.lower .direct targets) := by
  rw [← onSecond_forM]
  refine (forM_unhold_runs targets fun target member => ?_).onSecond
  obtain ⟨picture, found⟩ := exists_of_mem_handles (live target member)
  have exact := accounted .direct target picture found
  simp only [outside, List.count_append] at exact
  exact ⟨picture, found, by omega⟩

theorem releaseRecent_runs (accounted : window.Exact past.recent)
    (live : ∀ recent ∈ past.recent, recent ∈ window.handles) :
    Runs releaseRecent (past, window) (.ok ())
      ({ past with recent := [] }, window.lower .direct past.recent) := by
  refine (runs_get _).bind ((runs_modify _ _).bind ?_)
  have whole : window.Exact (past.recent ++ []) := by simpa using accounted
  exact unhold_recent_runs whole live _

theorem releaseOldest_runs {oldest : Handle} {rest : List Handle}
    (recentEq : past.recent = oldest :: rest) (accounted : window.Exact past.recent)
    (live : oldest ∈ window.handles) :
    Runs releaseOldest (past, window) (.ok ())
      ({ past with recent := rest }, window.lower .direct [oldest]) := by
  refine (runs_get _).bind ?_
  simp only [recentEq]
  refine (runs_modify _ _).bind ?_
  have whole : window.Exact ([oldest] ++ rest) := by simpa [recentEq] using accounted
  have runs := unhold_recent_runs whole (by simpa using live) { past with recent := rest }
  simpa [List.forM] using runs

def room {α : Type} (type : PictureType) (recent : List α) : List α :=
  if type = .idr then []
  else if maxListReferences ≤ recent.length then recent.tail
  else recent

theorem room_subset {α : Type} (type : PictureType) (recent : List α) :
    ∀ picture ∈ room type recent, picture ∈ recent := by
  intro picture member
  unfold room at member
  split at member
  · cases member
  split at member
  · exact List.mem_of_mem_tail member
  · exact member

theorem room_map {α β : Type} (rename : α → β) (type : PictureType) (recent : List α) :
    room type (recent.map rename) = (room type recent).map rename := by
  unfold room
  rw [List.length_map]
  split
  · rfl
  split
  · exact List.map_tail.symm
  · rfl

theorem makeRoom_runs (accounted : window.Exact past.recent)
    (live : ∀ recent ∈ past.recent, recent ∈ window.handles)
    (short : past.recent.length ≤ maxListReferences) (type : PictureType) :
    ∃ after, Runs (makeRoom type) (past, window) (.ok ())
        ({ past with recent := room type past.recent }, after) ∧
      after.Exact (room type past.recent) ∧ after.bare = window.bare ∧
      (room type past.recent).length < maxListReferences := by
  by_cases idr : type = .idr
  · rw [room, if_pos idr]
    refine ⟨window.lower .direct past.recent, ?_, ?_, bare_lower past.recent window, by decide⟩
    · refine (runs_get _).bind ?_
      dsimp only
      rw [if_pos idr]
      exact releaseRecent_runs accounted live
    · exact exact_lower (by simpa using accounted)
  · by_cases full : maxListReferences ≤ past.recent.length
    · cases recentEq : past.recent with
      | nil =>
          rw [recentEq] at full
          exact absurd full (by decide)
      | cons oldest rest =>
          have roomEq : room type (oldest :: rest) = rest := by
            rw [recentEq] at full
            rw [room, if_neg idr, if_pos full, List.tail_cons]
          rw [roomEq]
          refine ⟨window.lower .direct [oldest], ?_, ?_, bare_lower [oldest] window, ?_⟩
          · refine (runs_get _).bind ?_
            dsimp only
            rw [if_neg idr, if_pos full]
            exact releaseOldest_runs recentEq accounted (live oldest (by simp [recentEq]))
          · exact exact_lower (by simpa [recentEq] using accounted)
          · rw [recentEq, List.length_cons] at short
            omega
    · rw [room, if_neg idr, if_neg full]
      refine ⟨window, ?_, accounted, rfl, by omega⟩
      refine (runs_get _).bind ?_
      dsimp only
      rw [if_neg idr, if_neg full]
      exact runs_pure _ _

theorem addRecent_runs (accounted : window.Exact past.recent)
    (live : ∀ recent ∈ past.recent, recent ∈ window.handles)
    (short : past.recent.length ≤ maxListReferences) {handle : Handle} {picture : Picture ι}
    (found : window.find? handle = some picture) :
    ∃ after, Runs (addRecent handle) (past, window) (.ok ())
        ({ past with recent := room picture.type past.recent ++ [handle] }, after) ∧
      after.Exact (room picture.type past.recent ++ [handle]) ∧ after.bare = window.bare ∧
      (room picture.type past.recent).length < maxListReferences := by
  obtain ⟨middle, making, middleAccounted, same, fewer⟩ :=
    makeRoom_runs accounted live short picture.type
  have presentMiddle : handle ∈ middle.handles := by
    rw [handles_eq_of_plain_eq (plain_eq_of_bare_eq same)]
    exact mem_handles_of_find? found
  obtain ⟨_, foundMiddle⟩ := exists_of_mem_handles presentMiddle
  refine ⟨middle.adjust handle (·.hold .direct), ?_, exact_hold middleAccounted handle, ?_,
    fewer⟩
  · refine (fetch_runs found).onSecond.bind (making.bind ((runs_modify _ _).bind ?_))
    exact (alter_runs foundMiddle _).onSecond
  · rw [← same, adjust_eq_each]
    refine (bare_each_of_bare fun other picture _ => ?_).trans (congrArg bare (each_id middle))
    split <;> rfl

end PastPictures

end VideoSchedule

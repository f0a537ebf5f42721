import VideoSchedule.Prediction.Hierarchy
import VideoSchedule.Proofs.Naming

/-!
The layout of a group of B-pictures succeeds between any two pictures in display order, and leaves
every picture of the group with references that are issued or less deep than itself.
-/

namespace VideoSchedule

open VideoSchedule.Action Prediction

namespace Window

variable {ι : Type}

def Before (window : Window ι) (first second : Handle) : Prop :=
  ∃ earlier later, window.find? first = some earlier ∧ window.find? second = some later ∧
    earlier.displayOrder < later.displayOrder

/-- A picture that one at `depth` can refer to without waiting for its own group. -/
def Settled (window : Window ι) (depth : Nat) (handle : Handle) : Prop :=
  ∃ picture, window.find? handle = some picture ∧
    (picture.issued = true ∨ picture.held ≠ [] ∧ picture.depth < depth)

structure Placed (window : Window ι) (handle : Handle) (picture : Picture ι) : Prop where
  type : picture.type = .bidirectional
  follows : picture.previous.isSome = true
  kept : picture.isReference = true → handle ∈ picture.dpb
  settled : ∀ target ∈ picture.past ++ picture.future, window.Settled picture.depth target
  live : ∀ target ∈ picture.held, target ∈ window.handles

/-- Following the first future reference from a picture gives this list. -/
def FutureChain (window : Window ι) : Handle → List Handle → Prop
  | handle, [] => ∃ picture, window.find? handle = some picture ∧ picture.future = []
  | handle, next :: rest =>
    (∃ picture, window.find? handle = some picture ∧ picture.future.head? = some next) ∧
      FutureChain window next rest

variable {before after window : Window ι} {touched : List Handle}

theorem Before.ne {first second : Handle} (ordered : window.Before first second) :
    first ≠ second := by
  rintro rfl
  obtain ⟨earlier, later, foundEarlier, foundLater, less⟩ := ordered
  cases find?_unique foundEarlier foundLater
  omega

theorem Before.carry {first second : Handle} (ordered : before.Before first second)
    (carries : ∀ handle ∈ [first, second], ∀ picture, before.find? handle = some picture →
      ∃ other, after.find? handle = some other ∧ other.displayOrder = picture.displayOrder) :
    after.Before first second := by
  obtain ⟨earlier, later, foundEarlier, foundLater, less⟩ := ordered
  obtain ⟨newEarlier, foundNewEarlier, earlierEq⟩ := carries first (by simp) earlier foundEarlier
  obtain ⟨newLater, foundNewLater, laterEq⟩ := carries second (by simp) later foundLater
  exact ⟨newEarlier, newLater, foundNewEarlier, foundNewLater, by omega⟩

theorem Before.of_rewrites {first second : Handle} (ordered : before.Before first second)
    (rewrites : Rewrites touched before after) : after.Before first second := by
  refine ordered.carry fun handle _ picture found => ?_
  obtain ⟨other, foundOther, same⟩ := rewrites.find? found
  exact ⟨other, foundOther, (congrArg Picture.displayOrder same :)⟩

theorem Before.mem_left {first second : Handle} (ordered : window.Before first second) :
    first ∈ window.handles := by
  obtain ⟨_, _, found, _, _⟩ := ordered
  exact mem_handles_of_find? found

theorem Settled.mem {depth : Nat} {handle : Handle} (settled : window.Settled depth handle) :
    handle ∈ window.handles := by
  obtain ⟨_, found, _⟩ := settled
  exact mem_handles_of_find? found

theorem Settled.mono {depth deeper : Nat} {handle : Handle}
    (settled : window.Settled depth handle) (le : depth ≤ deeper) :
    window.Settled deeper handle := by
  obtain ⟨picture, found, ready⟩ := settled
  refine ⟨picture, found, ready.imp_right ?_⟩
  rintro ⟨filled, less⟩
  exact ⟨filled, by omega⟩

theorem Settled.of_rewrites {depth : Nat} {handle : Handle}
    (settled : before.Settled depth handle) (rewrites : Rewrites touched before after)
    (fresh : ∀ other ∈ touched, ∃ picture, before.find? other = some picture ∧ picture.Fresh) :
    after.Settled depth handle := by
  obtain ⟨picture, found, ready⟩ := settled
  have apart : handle ∉ touched := by
    intro member
    obtain ⟨other, foundOther, fresh⟩ := fresh handle member
    cases find?_unique found foundOther
    rcases ready with issued | ⟨filled, _⟩
    · rw [fresh.waiting] at issued
      cases issued
    · simp [Picture.held, fresh.past, fresh.future, fresh.dpb, fresh.previous] at filled
  obtain ⟨holds, foundAfter⟩ := rewrites.find?_other found apart
  exact ⟨_, foundAfter, ready⟩

theorem Placed.of_rewrites {handle : Handle} {picture : Picture ι}
    (placed : before.Placed handle picture) (rewrites : Rewrites touched before after)
    (fresh : ∀ other ∈ touched, ∃ picture, before.find? other = some picture ∧ picture.Fresh)
    (holds : PerLevel Nat) : after.Placed handle (picture.withHolds holds) := by
  constructor
  case type => exact placed.type
  case follows => exact placed.follows
  case kept => exact placed.kept
  case settled =>
    exact fun target member => (placed.settled target member).of_rewrites rewrites fresh
  case live =>
    rw [rewrites.handles]
    exact placed.live

theorem FutureChain.mem : ∀ {handle : Handle} {chain : List Handle},
    window.FutureChain handle chain → ∀ target ∈ handle :: chain, target ∈ window.handles := by
  intro handle chain follows
  induction chain generalizing handle with
  | nil =>
      obtain ⟨picture, found, _⟩ := follows
      simpa using mem_handles_of_find? found
  | cons next rest ih =>
      obtain ⟨⟨picture, found, _⟩, tail⟩ := follows
      intro target member
      rcases List.mem_cons.mp member with rfl | later
      · exact mem_handles_of_find? found
      · exact ih tail target later

theorem FutureChain.of_rewrites (rewrites : Rewrites touched before after) :
    ∀ {handle : Handle} {chain : List Handle}, before.FutureChain handle chain →
      (∀ target ∈ handle :: chain, target ∉ touched) → after.FutureChain handle chain := by
  intro handle chain follows apart
  induction chain generalizing handle with
  | nil =>
      obtain ⟨picture, found, last⟩ := follows
      obtain ⟨_, foundAfter⟩ :=
        rewrites.find?_other found (apart handle (List.mem_cons_self ..))
      exact ⟨_, foundAfter, last⟩
  | cons next rest ih =>
      obtain ⟨⟨picture, found, leads⟩, tail⟩ := follows
      obtain ⟨_, foundAfter⟩ :=
        rewrites.find?_other found (apart handle (List.mem_cons_self ..))
      refine ⟨⟨_, foundAfter, leads⟩, ih tail ?_⟩
      exact fun target member => apart target (List.mem_cons_of_mem _ member)

theorem FutureChain.futureChain_eq : ∀ {handle : Handle} {chain : List Handle},
    window.FutureChain handle chain → ∀ {picture : Picture ι},
      window.find? handle = some picture → ∀ {limit : Nat}, chain.length ≤ limit →
        Hierarchy.futureChain window limit picture.future.head? = chain := by
  intro handle chain follows picture found limit enough
  induction chain generalizing handle picture limit with
  | nil =>
      obtain ⟨other, foundOther, last⟩ := follows
      cases find?_unique found foundOther
      rw [last]
      cases limit <;> rfl
  | cons next rest ih =>
      obtain ⟨⟨other, foundOther, leads⟩, tail⟩ := follows
      cases find?_unique found foundOther
      cases limit with
      | zero => simp at enough
      | succ limit =>
          obtain ⟨following, foundFollowing⟩ :=
            exists_of_mem_handles (tail.mem next (List.mem_cons_self ..))
          rw [leads, Hierarchy.futureChain, foundFollowing, Option.bind_some]
          rw [ih tail foundFollowing (by simpa using enough)]

end Window

namespace Hierarchy

open Window

variable {ι : Type} {window : Window ι}

def fill (placement : Placement) (chain : List Handle) (previous : Handle)
    (picture : Picture ι) : Picture ι :=
  { picture with
    type := .bidirectional
    depth := placement.depth
    isReference := placement.isReference
    dpb := (if placement.isReference then [placement.picture] else []) ++
      ([placement.past, placement.future] ++ chain)
    past := [placement.past]
    future := [placement.future]
    previous := some previous }

structure Fits (window : Window ι) (placement : Placement) (chain : List Handle)
    (previous : Handle) : Prop where
  afterPast : window.Before placement.past placement.picture
  beforeFuture : window.Before placement.picture placement.future
  leads : window.FutureChain placement.future chain
  apart : placement.picture ∉ chain
  room : chain.length + 2 + placement.isReference.toNat ≤ maxDpbSize
  previous : previous ∈ window.handles

theorem enter_dpb (target : Handle) (order : Nat) (picture : Picture ι) :
    Roles.enter { dpb := true } target order picture = picture.refer [] [target] := by
  simp [Roles.enter, Roles.list, Roles.keep, Roles.follow, Picture.refer]

theorem enter_past {target : Handle} {order : Nat} {picture : Picture ι}
    (earlier : order < picture.displayOrder) :
    Roles.enter { reference := true, dpb := true } target order picture =
      picture.refer [target] [target] := by
  simp [Roles.enter, Roles.list, Roles.keep, Roles.follow, enterList, Picture.refer, earlier]

theorem enter_future {target : Handle} {order : Nat} {picture : Picture ι}
    (later : picture.displayOrder < order) :
    Roles.enter { reference := true, dpb := true } target order picture =
      { picture with
        future := picture.future ++ [target], dpb := picture.dpb ++ [target] } := by
  simp [Roles.enter, Roles.list, Roles.keep, Roles.follow, enterList, Nat.not_lt_of_lt later]

theorem enter_previous (target : Handle) (order : Nat) (picture : Picture ι) :
    Roles.enter { previous := true } target order picture =
      { picture with previous := some target } := by
  simp [Roles.enter, Roles.list, Roles.keep, Roles.follow]

theorem keepSelf_runs {handle : Handle} {picture : Picture ι} (found : window.find? handle = some picture)
    (holding : picture.released = ⟨false, false⟩) (empty : picture.dpb = []) (wanted : Bool) :
    ∃ after holds,
      Runs (when wanted (addReference handle handle { dpb := true })) window (.ok ()) after ∧
      Tallies window after ∧ Rewrites [handle] window after ∧
      after.find? handle = some (Picture.withHolds holds { picture with
        dpb := if wanted then [handle] else [] }) := by
  cases wanted with
  | false =>
      refine ⟨window, picture.holds, runs_when_false (by simp) _, Tallies.refl _, Rewrites.refl _ _, ?_⟩
      simpa [Picture.withHolds, ← empty] using found
  | true =>
      obtain ⟨after, holds, runs, tallies, rewrites, foundAfter⟩ :=
        addReference_tallies { dpb := true } found found holding
          (by simp) (by simp [empty, maxDpbSize]) (by simp)
      refine ⟨after, holds, runs_when_true rfl runs, tallies, rewrites, ?_⟩
      rw [foundAfter, enter_dpb]
      simp [Picture.refer, empty]

theorem referBoth_runs {handle past future previous : Handle}
    {picture : Picture ι} (found : window.find? handle = some picture)
    (holding : picture.released = ⟨false, false⟩) (noPast : picture.past = [])
    (noFuture : picture.future = []) (noPrevious : picture.previous = none)
    (room : picture.dpb.length + 2 ≤ maxDpbSize) (afterPast : window.Before past handle)
    (beforeFuture : window.Before handle future) (live : previous ∈ window.handles) :
    ∃ after holds,
      Runs (do
        addReference handle past { reference := true, dpb := true }
        addReference handle future { reference := true, dpb := true }
        addReference handle previous { previous := true }) window (.ok ()) after ∧
      Tallies window after ∧ Rewrites [handle] window after ∧
      after.find? handle = some (Picture.withHolds holds { picture with
        past := [past]
        future := [future]
        dpb := picture.dpb ++ [past, future]
        previous := some previous }) := by
  obtain ⟨pastPicture, other, foundPast, foundOther, pastLess⟩ := id afterPast
  cases find?_unique found foundOther
  obtain ⟨w₁, holds₁, runs₁, tallies₁, rewrites₁, found₁⟩ :=
    addReference_tallies { reference := true, dpb := true } found foundPast
      holding (fun _ => ⟨afterPast.ne.symm, by simp [listsFull, noPast, noFuture, maxListReferences]⟩)
      (fun _ => by omega) (by simp)
  rw [enter_past pastLess] at found₁
  have beforeFuture₁ := beforeFuture.of_rewrites rewrites₁
  obtain ⟨other, futurePicture, foundOther, foundFuture, futureLess⟩ := id beforeFuture₁
  cases find?_unique found₁ foundOther
  obtain ⟨w₂, holds₂, runs₂, tallies₂, rewrites₂, found₂⟩ :=
    addReference_tallies { reference := true, dpb := true } found₁ foundFuture holding
      (fun _ => ⟨beforeFuture₁.ne, by
        simp [listsFull, Picture.withHolds, Picture.refer, noPast, noFuture, maxListReferences]⟩)
      (fun _ => by
        simp only [Picture.withHolds, Picture.refer, List.length_append, List.length_singleton]
        omega)
      (by simp)
  rw [enter_future futureLess] at found₂
  have live₂ : previous ∈ w₂.handles := by rwa [rewrites₂.handles, rewrites₁.handles]
  obtain ⟨_, foundPrevious⟩ := exists_of_mem_handles live₂
  obtain ⟨w₃, holds₃, runs₃, tallies₃, rewrites₃, found₃⟩ :=
    addReference_tallies { previous := true } found₂ foundPrevious holding
      (by simp) (by simp) (fun _ => noPrevious)
  rw [enter_previous] at found₃
  refine ⟨w₃, holds₃, runs₁.bind (runs₂.bind runs₃),
    (tallies₁.trans tallies₂).trans tallies₃, (rewrites₁.trans rewrites₂).trans rewrites₃, ?_⟩
  rw [found₃]
  simp [Picture.withHolds, Picture.refer, noPast, noFuture]

theorem addFutureChain_runs {handle future : Handle}
    {chain : List Handle} {picture : Picture ι} (found : window.find? handle = some picture)
    (holding : picture.released = ⟨false, false⟩) (leads : window.FutureChain future chain)
    (room : picture.dpb.length + chain.length ≤ maxDpbSize) :
    ∃ after holds, Runs (addFutureChain handle future) window (.ok ()) after ∧
      Tallies window after ∧ Rewrites [handle] window after ∧
      after.find? handle = some ((picture.refer [] chain).withHolds holds) := by
  obtain ⟨futurePicture, foundFuture⟩ :=
    exists_of_mem_handles (leads.mem future (List.mem_cons_self ..))
  obtain ⟨after, holds, runs, tallies, rewrites, foundAfter⟩ :=
    forM_addReference_tallies { dpb := true } rfl chain found holding
      (fun target member => by
        obtain ⟨named, foundNamed⟩ :=
          exists_of_mem_handles (leads.mem target (List.mem_cons_of_mem _ member))
        exact ⟨named, foundNamed, by simp⟩)
      (by simp) (fun _ => room)
  refine ⟨after, holds, ?_, tallies, rewrites, foundAfter⟩
  refine (runs_get _).bind ((fetch_runs foundFuture).bind ?_)
  rw [leads.futureChain_eq foundFuture (by omega)]
  exact runs

theorem place_runs {placement : Placement}
    {chain : List Handle} {previous : Handle} (fits : Fits window placement chain previous)
    {picture : Picture ι} (found : window.find? placement.picture = some picture)
    (fresh : picture.Fresh) :
    ∃ after holds, Runs (place placement previous) window (.ok ()) after ∧
      Tallies window after ∧ Rewrites [placement.picture] window after ∧
      after.find? placement.picture =
        some ((fill placement chain previous picture).withHolds holds) := by
  obtain ⟨afterPast, beforeFuture, leads, apart, room, live⟩ := fits
  obtain ⟨handle, depth, isReference, past, future⟩ := placement
  simp only at found afterPast beforeFuture leads apart room ⊢
  let typed := fun picture : Picture ι =>
    { picture with type := .bidirectional, depth := depth, isReference := isReference }
  have typing := rewrites_adjust handle typed window fun _ => rfl
  have typedTallies : Tallies window (window.adjust handle typed) :=
    fun _ accounted => accounted.adjust (fun _ => rfl) fun _ _ => rfl
  have foundTyped := find?_adjust_self found typed
  obtain ⟨w₁, holds₁, runs₁, tallies₁, rewrites₁, found₁⟩ :=
    keepSelf_runs foundTyped fresh.released fresh.dpb isReference
  have changed₁ := typing.trans rewrites₁
  have short₁ : (if isReference then [handle] else []).length = isReference.toNat := by
    cases isReference <;> rfl
  obtain ⟨w₂, holds₂, runs₂, tallies₂, rewrites₂, found₂⟩ :=
    referBoth_runs found₁ fresh.released fresh.past fresh.future fresh.previous
      (by simp only [Picture.withHolds]; omega) (afterPast.of_rewrites changed₁)
      (beforeFuture.of_rewrites changed₁) (by rwa [changed₁.handles])
  have changed₂ := changed₁.trans rewrites₂
  have untouched : ∀ target ∈ future :: chain, target ∉ [handle] := by
    intro target member
    rw [List.mem_singleton]
    rintro rfl
    exact (List.mem_cons.mp member).elim beforeFuture.ne apart
  obtain ⟨w₃, holds₃, runs₃, tallies₃, rewrites₃, found₃⟩ :=
    addFutureChain_runs found₂ fresh.released (leads.of_rewrites changed₂ untouched)
      (by
        simp only [Picture.withHolds, List.length_append, List.length_cons, List.length_nil]
        omega)
  refine ⟨w₃, holds₃, (alter_runs found typed).bind (runs₁.bind ?_),
    typedTallies.trans (tallies₁.trans (tallies₂.trans tallies₃)), changed₂.trans rewrites₃, ?_⟩
  · simpa only [bind_assoc] using runs₂.bind runs₃
  · rw [found₃]
    simp [fill, Picture.withHolds, Picture.refer, typed]

end Hierarchy

end VideoSchedule

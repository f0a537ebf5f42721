import VideoSchedule.Proofs.Chart

/-!
A whole group of B-pictures. The plan is followed in its own recursion: the picture in the middle is
placed, which opens a gap on either side of it, one level deeper.
-/

namespace VideoSchedule

open VideoSchedule.Action Prediction

namespace Hierarchy

open Window

variable {ι : Type} {before after window : Window ι} {touched between chain : List Handle}
  {depth levels : Nat} {past future previous : Handle}

/-- Fresh pictures between two others. `chain` are the pictures that a decoder keeps for the sake of
`future`; there is room for them on `levels` more levels of references. -/
structure Gap (window : Window ι) (levels : Nat) (past : Handle) (between : List Handle)
    (future : Handle) (chain : List Handle) : Prop where
  ordered : (past :: (between ++ [future])).Pairwise window.Before
  fresh : ∀ handle ∈ between, ∃ picture, window.find? handle = some picture ∧ picture.Fresh
  leads : window.FutureChain future chain
  apart : ∀ handle ∈ between, handle ∉ chain
  room : chain.length + levels + 2 ≤ maxDpbSize

theorem fresh_of_rewrites (rewrites : Rewrites touched before after)
    (fresh : ∀ handle ∈ between, ∃ picture, before.find? handle = some picture ∧ picture.Fresh)
    (apart : ∀ handle ∈ between, handle ∉ touched) :
    ∀ handle ∈ between, ∃ picture, after.find? handle = some picture ∧ picture.Fresh := by
  intro handle member
  obtain ⟨picture, found, isFresh⟩ := fresh handle member
  obtain ⟨holds, foundAfter⟩ := rewrites.find?_other found (apart handle member)
  exact ⟨_, foundAfter, isFresh.withHolds holds⟩

namespace Gap

theorem of_rewrites (gap : Gap before levels past between future chain)
    (rewrites : Rewrites touched before after)
    (outside : ∀ handle ∈ touched, handle ∉ between ∧ handle ∉ future :: chain) :
    Gap after levels past between future chain where
  ordered := gap.ordered.imp fun ordered => ordered.of_rewrites rewrites
  fresh := fresh_of_rewrites rewrites gap.fresh fun handle member written =>
    (outside handle written).1 member
  leads := gap.leads.of_rewrites rewrites fun target member written =>
    (outside target written).2 member
  apart := gap.apart
  room := gap.room

theorem nodup (gap : Gap window levels past between future chain) :
    (past :: (between ++ [future])).Nodup :=
  gap.ordered.imp Before.ne

theorem notMem_kept (gap : Gap window levels past between future chain) {handle : Handle}
    (member : handle ∈ between) : handle ∉ future :: chain := by
  intro kept
  rcases List.mem_cons.mp kept with same | later
  · have distinct := gap.nodup
    simp only [List.nodup_cons, List.nodup_append] at distinct
    exact distinct.2.2.2 handle member future (List.mem_singleton_self _) same
  · exact gap.apart handle member later

theorem fits {first : Handle} (gap : Gap window levels past between future chain)
    (member : first ∈ between) (live : previous ∈ window.handles) (depth : Nat) {isReference : Bool}
    (shallow : isReference.toNat ≤ levels) :
    Fits window { picture := first, depth, isReference, past, future } chain previous := by
  obtain ⟨fromPast, ordered⟩ := List.pairwise_cons.mp gap.ordered
  obtain ⟨_, _, toFuture⟩ := List.pairwise_append.mp ordered
  have room := gap.room
  exact {
    afterPast := fromPast first (List.mem_append_left _ member)
    beforeFuture := toFuture first member future (List.mem_singleton_self _)
    leads := gap.leads
    apart := gap.apart first member
    room := by dsimp only; omega
    previous := live }

theorem tail {first : Handle} {rest : List Handle}
    (gap : Gap window levels past (first :: rest) future chain) :
    Gap window levels past rest future chain where
  ordered := gap.ordered.sublist ((List.sublist_cons_self first _).cons_cons past)
  fresh := fun handle member => gap.fresh handle (List.mem_cons_of_mem _ member)
  leads := gap.leads
  apart := fun handle member => gap.apart handle (List.mem_cons_of_mem _ member)
  room := gap.room

end Gap

theorem placeAll_append (first second : List Placement) (previous : Handle) :
    (placeAll (first ++ second) previous : Action (Window ι) Handle) =
      placeAll first previous >>= placeAll second := by
  induction first generalizing previous with
  | nil => simp [placeAll]
  | cons placement rest ih => simp [placeAll, ih]

theorem place_of_gap (gap : Gap window levels past between future chain) {handle : Handle}
    (member : handle ∈ between) (live : previous ∈ window.handles) (depth : Nat)
    (isReference : Bool) (shallow : isReference.toNat ≤ levels) :
    ∃ after current,
      Runs (place { picture := handle, depth, isReference, past, future } previous) window
        (.ok ()) after ∧
      Tallies window after ∧ Rewrites [handle] window after ∧
      after.find? handle = some current ∧
      ({ picture := handle, depth, isReference, past, future, chain } : Mark Handle).Describes
        current ∧
      current.previous = some previous := by
  obtain ⟨picture, found, fresh⟩ := gap.fresh handle member
  obtain ⟨after, holds, runs, tallies, rewrites, foundAfter⟩ :=
    place_runs (gap.fits member live depth shallow) found fresh
  exact ⟨after, _, runs, tallies, rewrites, foundAfter, ⟨rfl, rfl, rfl, rfl, rfl, rfl⟩, rfl⟩

theorem level_runs (gap : Gap window levels past between future chain)
    (live : previous ∈ window.handles) (depth : Nat) :
    ∃ after, Runs (placeAll ((level depth past between future chain).map Mark.placement) previous)
        window (.ok (Mark.last previous (level depth past between future chain))) after ∧
      Tallies window after ∧ Rewrites between window after ∧
      after.Charted (level depth past between future chain) ∧
      after.Trailed previous (level depth past between future chain) := by
  induction between generalizing window with
  | nil =>
      exact ⟨window, runs_pure _ _, Tallies.refl _, Rewrites.refl _ _, by simp [Charted, level],
        trivial⟩
  | cons first rest ih =>
      obtain ⟨middle, current, runs, tallies, rewrites, found, describes, follows⟩ :=
        place_of_gap gap (List.mem_cons_self ..) live depth false (Nat.zero_le _)
      have firstApart : first ∉ rest := by
        have distinct := gap.nodup
        simp only [List.cons_append, List.nodup_cons, List.mem_append] at distinct
        tauto
      have later : Gap middle levels past rest future chain := by
        refine gap.tail.of_rewrites rewrites fun handle single => ?_
        rw [List.mem_singleton.mp single]
        exact ⟨firstApart, gap.notMem_kept (List.mem_cons_self ..)⟩
      obtain ⟨after, tail, talliesRest, restRewrites, restCharted, restTrailed⟩ :=
        ih later (by rwa [rewrites.handles])
      obtain ⟨holds, foundAfter⟩ := restRewrites.find?_other found firstApart
      refine ⟨after, runs.bind tail, tallies.trans talliesRest, ?_, ?_,
        ⟨_, foundAfter, follows⟩, restTrailed⟩
      · exact (rewrites.mono (by simp)).trans
          (restRewrites.mono fun handle member => List.mem_cons_of_mem _ member)
      · intro mark member
        rcases List.mem_cons.mp member with rfl | member
        · exact ⟨_, foundAfter, describes.withHolds holds⟩
        · exact restCharted mark member

/-! A picture in the middle. -/

theorem Gap.split {left right : List Handle} {handle : Handle} {current : Picture ι}
    (gap : Gap before (levels + 1) past (left ++ handle :: right) future chain)
    (rewrites : Rewrites [handle] before after) (found : after.find? handle = some current)
    (futureEq : current.future = [future]) :
    Gap after levels past left handle (future :: chain) ∧
      Gap after levels handle right future chain := by
  have ordered : (past :: (left ++ handle :: right ++ [future])).Pairwise after.Before :=
    gap.ordered.imp fun ordered => ordered.of_rewrites rewrites
  have apart : ∀ other ∈ left ++ right, other ≠ handle := by
    have distinct := gap.nodup
    simp only [List.nodup_cons, List.nodup_append] at distinct
    grind
  have fresh : ∀ other ∈ left ++ right, ∃ picture, after.find? other = some picture ∧
      picture.Fresh := by
    refine fresh_of_rewrites rewrites (fun other member => gap.fresh other ?_) ?_
    · rcases List.mem_append.mp member with member | member <;> simp [member]
    · intro other member
      simpa using apart other member
  have handleApart : handle ∉ future :: chain := gap.notMem_kept (by simp)
  have leads : after.FutureChain future chain := by
    refine gap.leads.of_rewrites rewrites fun target member written => handleApart ?_
    rwa [List.mem_singleton.mp written] at member
  have room := gap.room
  constructor
  · exact {
      ordered := ordered.sublist (List.Sublist.cons_cons _ (by simp))
      fresh := fun other member => fresh other (List.mem_append_left _ member)
      leads := ⟨⟨current, found, by simp [futureEq]⟩, leads⟩
      apart := fun other member => gap.notMem_kept (List.mem_append_left _ member)
      room := by simp only [List.length_cons]; omega }
  · exact {
      ordered := ordered.sublist (by simp)
      fresh := fun other member => fresh other (List.mem_append_right _ member)
      leads := leads
      apart := fun other member => gap.apart other (by simp [member])
      room := by omega }

theorem chart_runs (gap : Gap window levels past between future chain)
    (live : previous ∈ window.handles) (depth : Nat) :
    ∃ after, Runs (placeAll ((chart levels depth past between future chain).map Mark.placement)
        previous) window (.ok (Mark.last previous (chart levels depth past between future chain)))
        after ∧
      Tallies window after ∧ Rewrites between window after ∧
      after.Charted (chart levels depth past between future chain) ∧
      after.Trailed previous (chart levels depth past between future chain) := by
  induction levels generalizing window depth past between future chain previous with
  | zero => exact level_runs gap live depth
  | succ levels ih =>
      by_cases several : 1 < between.length
      · obtain ⟨left, handle, right, rfl, chartEq⟩ :=
          chart_several levels depth past future chain several
        rw [chartEq]
        have isBetween : handle ∈ left ++ handle :: right := by simp
        obtain ⟨w₁, current, placing, tallies₁, rewrites₁, found, describes, follows⟩ :=
          place_of_gap gap isBetween live depth true (Nat.succ_le_succ (Nat.zero_le _))
        obtain ⟨leftGap, rightGap⟩ := gap.split rewrites₁ found describes.future
        obtain ⟨w₂, leftRuns, tallies₂, rewrites₂, leftCharted, leftTrailed⟩ :=
          ih leftGap (mem_handles_of_find? found) (depth + 1)
        have distinct := gap.nodup
        simp only [List.nodup_cons, List.nodup_append] at distinct
        -- The left half is laid out before the right one and leaves it untouched.
        have rightGap₂ : Gap w₂ levels handle right future chain := by
          refine rightGap.of_rewrites rewrites₂ fun other member => ⟨?_, ?_⟩
          · grind
          · exact gap.notMem_kept (List.mem_append_left _ member)
        have leftPictures : ∀ mark ∈ chart levels (depth + 1) past left handle (future :: chain),
            mark.picture ∈ left := fun mark member =>
          (pictures_chart ..).mem_iff.mp (List.mem_map_of_mem member)
        have live₂ : Mark.last handle (chart levels (depth + 1) past left handle
            (future :: chain)) ∈ w₂.handles := by
          rw [rewrites₂.handles]
          rcases Mark.last_cases handle (chart levels (depth + 1) past left handle
              (future :: chain)) with ⟨_, same⟩ | ⟨_, mark, member, _, same⟩
          · rw [same]
            exact mem_handles_of_find? found
          · obtain ⟨_, foundMark, _⟩ := leftGap.fresh _ (leftPictures mark member)
            rw [← same]
            exact mem_handles_of_find? foundMark
        obtain ⟨w₃, rightRuns, tallies₃, rewrites₃, rightCharted, rightTrailed⟩ :=
          ih rightGap₂ live₂ (depth + 1)
        obtain ⟨_, found₂⟩ := rewrites₂.find?_other found (by grind)
        obtain ⟨holds, found₃⟩ := rewrites₃.find?_other found₂ (by grind)
        have leftApart : ∀ mark ∈ chart levels (depth + 1) past left handle (future :: chain),
            mark.picture ∉ right := fun mark member inRight => by
          have inLeft := leftPictures mark member
          grind
        refine ⟨w₃, ?_, tallies₁.trans (tallies₂.trans tallies₃), ?_, ?_, ?_⟩
        · rw [List.map_cons, List.map_append, Mark.last, Mark.last_append]
          refine placing.bind ?_
          rw [placeAll_append]
          exact leftRuns.bind rightRuns
        · exact ((rewrites₁.mono (by simp)).trans (rewrites₂.mono (by simp_all))).trans
            (rewrites₃.mono (by simp_all))
        · have middleCharted : w₃.Charted
              [{ picture := handle, depth, isReference := true, past, future, chain }] := by
            intro mark member
            rw [List.mem_singleton.mp member]
            exact ⟨_, found₃, (describes.withHolds _).withHolds holds⟩
          exact middleCharted.append ((leftCharted.of_rewrites rewrites₃ leftApart).append
            rightCharted)
        · exact ⟨⟨_, found₃, follows⟩,
            (leftTrailed.of_rewrites rewrites₃ leftApart).append rightTrailed⟩
      · rw [chart, dif_neg several]
        exact level_runs gap live depth

/-! What is known of a group that is laid out. -/

def Spread (window : Window ι) (between kept : List Handle) : Prop :=
  ∀ handle ∈ between, ∃ picture, window.find? handle = some picture ∧
    window.Placed handle picture ∧ ∀ target ∈ kept, target ∈ picture.held

theorem Spread.of_rewrites {kept : List Handle} (spread : Spread before between kept)
    (rewrites : Rewrites touched before after)
    (fresh : ∀ handle ∈ touched, ∃ picture, before.find? handle = some picture ∧ picture.Fresh)
    (apart : ∀ handle ∈ between, handle ∉ touched) : Spread after between kept := by
  intro handle member
  obtain ⟨picture, found, placed, keeps⟩ := spread handle member
  obtain ⟨holds, foundAfter⟩ := rewrites.find?_other found (apart handle member)
  exact ⟨_, foundAfter, placed.of_rewrites rewrites fresh holds, keeps⟩

theorem spread_chart (charted : window.Charted (chart levels depth past between future chain))
    (trailed : window.Trailed previous (chart levels depth past between future chain))
    (pastSettled : window.Settled depth past) (futureSettled : window.Settled depth future)
    (live : ∀ target ∈ previous :: future :: chain, target ∈ window.handles) :
    Spread window between (future :: chain) := by
  have inside : ∀ {handle}, handle ∈ between ↔
      ∃ mark ∈ chart levels depth past between future chain, mark.picture = handle := by
    intro handle
    rw [← (pictures_chart levels depth past between future chain).mem_iff, List.mem_map]
  have liveBetween : ∀ handle ∈ past :: between, handle ∈ window.handles := by
    intro handle member
    rcases List.mem_cons.mp member with rfl | member
    · exact pastSettled.mem
    · obtain ⟨mark, isMark, rfl⟩ := inside.mp member
      obtain ⟨_, found, _⟩ := charted mark isMark
      exact mem_handles_of_find? found
  intro handle member
  obtain ⟨mark, isMark, rfl⟩ := inside.mp member
  obtain ⟨picture, found, describes⟩ := charted mark isMark
  obtain ⟨same, target, foundSame, follows, among⟩ := trailed.follows mark isMark
  cases find?_unique found foundSame
  have settled : ∀ name ∈ [mark.past, mark.future], window.Settled picture.depth name := by
    intro name named
    have deep : depth ≤ picture.depth := by
      rw [describes.depth]
      exact depth_chart _ _ _ _ _ _ mark isMark
    rcases rises_chart _ _ _ _ _ _ mark isMark name named with around | ⟨other, isOther, rfl, less, _⟩
    · rcases List.mem_pair.mp around with rfl | rfl
      · exact pastSettled.mono deep
      · exact futureSettled.mono deep
    · obtain ⟨current, foundOther, describesOther⟩ := charted other isOther
      refine ⟨current, foundOther, Or.inr ⟨?_, ?_⟩⟩
      · simp [Picture.held, describesOther.past]
      · rw [describes.depth, describesOther.depth]
        exact less
  refine ⟨picture, found, ⟨describes.type, by simp [follows], ?_, ?_, ?_⟩, ?_⟩
  · intro reference
    rw [describes.isReference] at reference
    simp [describes.dpb, reference]
  · rw [describes.past, describes.future]
    exact settled
  · have needs : ∀ name ∈ mark.needs, name ∈ window.handles := by
      intro name needed
      rcases needs_chart _ _ _ _ _ _ mark isMark name needed with within | kept
      · exact liveBetween name within
      · exact live name (List.mem_cons_of_mem _ kept)
    have targetLive : target ∈ window.handles := by
      rcases List.mem_cons.mp among with rfl | among
      · exact live _ (List.mem_cons_self ..)
      · obtain ⟨other, isOther, rfl⟩ := List.mem_map.mp among
        exact liveBetween _ (List.mem_cons_of_mem _ (inside.mpr ⟨other, isOther, rfl⟩))
    intro name holds
    have cases : name = mark.picture ∨ name = target ∨ name ∈ mark.needs := by
      simp only [Picture.held, describes.past, describes.future, describes.dpb, follows,
        Mark.needs] at holds ⊢
      cases mark.isReference <;> simp at holds ⊢ <;> tauto
    rcases cases with rfl | rfl | needed
    · exact mem_handles_of_find? found
    · exact targetLive
    · exact needs name needed
  · intro name kept
    have needed := keeps_chart _ _ _ _ _ _ mark isMark name kept
    simp [Picture.held, describes.dpb, needed]

def Follows (window : Window ι) (between : List Handle) (previous last : Handle) : Prop :=
  last = previous ∨
    last ∈ between ∧ ∃ picture, window.find? last = some picture ∧ picture.isReference = true

theorem Follows.of_charted {marks : List (Mark Handle)} (charted : window.Charted marks)
    (inside : ∀ mark ∈ marks, mark.picture ∈ between) :
    Follows window between previous (Mark.last previous marks) := by
  rcases Mark.last_cases previous marks with ⟨_, same⟩ | ⟨_, mark, member, reference, same⟩
  · exact Or.inl same
  · obtain ⟨picture, found, describes⟩ := charted mark member
    rw [← same]
    exact Or.inr ⟨inside mark member, picture, found, describes.isReference.trans reference⟩

end Hierarchy

end VideoSchedule

import VideoSchedule.Proofs.Boundaries

/-!
What a backend is asked for. Its capabilities are looked at once, for the structure of the stream; no
request goes beyond them afterwards.
-/

namespace VideoSchedule

open Hierarchy

/-- A picture that a backend with these capabilities can encode, among all that were issued. -/
structure Outline.Conforms (config : Config) (caps : Capabilities) (outlines : List Outline)
    (outline : Outline) : Prop where
  past : outline.past.length ≤ min caps.maxPastRefs maxListReferences
  future : outline.future.length ≤ min caps.maxFutureRefs maxListReferences
  /-- The picture itself is kept as well if it is a reference picture. -/
  dpb : outline.dpb.length + outline.isReference.toNat ≤ maxDpbSize
  keysOnly : caps.intraOnly = true ∨ config.gopSize ≤ 1 →
    outline.IsKey ∧ outline.past = [] ∧ outline.future = []
  idrOnly : caps.intraKeyPictures = false → outline.type ≠ .intra
  pastOnly : caps.bPictures = false ∨ caps.maxFutureRefs = 0 ∨ caps.pastOnly = true →
    outline.depth = 0 ∧ outline.future = []
  /-- Without reference B-pictures nothing refers to a B-picture. -/
  topOnly : caps.bPictureReferences = false → ∀ other ∈ outlines, 0 < other.depth →
    other.displayOrder ∉ outline.needs
  earlier : ∀ name ∈ outline.past, name < outline.displayOrder
  later : ∀ name ∈ outline.future, outline.displayOrder < name
  pair : 0 < outline.depth → outline.past.length = 1 ∧ outline.future.length = 1

namespace Gop

variable {config : Config} {caps : Capabilities} {gop : Gop}

/-- How capabilities show in the structure of a stream. -/
structure Suits (gop : Gop) (config : Config) (caps : Capabilities) : Prop where
  keysOnly : caps.intraOnly = true ∨ config.gopSize ≤ 1 → gop.size = 1 ∧ gop.bPerGroup = 0
  predicts : 1 < gop.size → 1 ≤ caps.maxPastRefs
  idrOnly : caps.intraKeyPictures = false → gop.gopsPerIdr = 1
  pastOnly : caps.bPictures = false ∨ caps.maxFutureRefs = 0 ∨ caps.pastOnly = true →
    gop.bPerGroup = 0
  reorders : 0 < gop.bPerGroup → 1 ≤ caps.maxPastRefs ∧ 1 ≤ caps.maxFutureRefs
  topOnly : caps.bPictureReferences = false → gop.maxBDepth ≤ 1
  counts : 0 < gop.gopsPerIdr

theorem suits_of_ofConfig? (made : ofConfig? config caps = some gop) : gop.Suits config caps := by
  simp only [ofConfig?] at made
  have gops : 0 < if caps.intraKeyPictures then min (config.idrInterval + 1) 0xFFFFFFFF else 1 := by
    split <;> omega
  have idrOnly : caps.intraKeyPictures = false →
      (if caps.intraKeyPictures then min (config.idrInterval + 1) 0xFFFFFFFF else 1) = 1 := by
    intro none
    rw [if_neg (by simp [none])]
  split at made
  next keys =>
    cases made
    exact ⟨fun _ => ⟨rfl, rfl⟩, fun more => absurd more (Nat.lt_irrefl 1), idrOnly, fun _ => rfl,
      fun some => absurd some (Nat.lt_irrefl 0), fun _ => Nat.zero_le 1, gops⟩
  next several =>
    simp only [onlyKeys, Bool.or_eq_true, decide_eq_true_eq] at several
    split at made
    · cases made
    next refs =>
      have predicts : 1 ≤ caps.maxPastRefs := Nat.le_of_not_lt refs
      split at made
      next uses =>
        cases made
        simp only [usesB, Bool.and_eq_true, decide_eq_true_eq, Bool.not_eq_true'] at uses
        obtain ⟨⟨⟨both, future⟩, _⟩, sides⟩ := uses
        refine ⟨fun keys => absurd keys several, fun _ => predicts, idrOnly, ?_,
          fun _ => ⟨predicts, future⟩, fun none => ?_, gops⟩
        · rintro (none | none | none)
          · cases both.symm.trans none
          · omega
          · cases sides.symm.trans none
        · dsimp only
          rw [if_neg (by simp [none])]
      next =>
        cases made
        exact ⟨fun keys => absurd keys several, fun _ => predicts, idrOnly, fun _ => rfl,
          fun some => absurd some (Nat.lt_irrefl 0), fun _ => Nat.zero_le 1, gops⟩

end Gop

namespace Hierarchy

theorem between_chart (levels depth past : Nat) (between : List Nat) (future : Nat)
    (chain : List Nat) (sorted : (past :: (between ++ [future])).Pairwise (· < ·)) :
    ∀ mark ∈ chart levels depth past between future chain,
      mark.past < mark.picture ∧ mark.picture < mark.future := by
  refine chart_induction (motive := fun _ _ past between future _ marks =>
    (past :: (between ++ [future])).Pairwise (· < ·) →
      ∀ mark ∈ marks, mark.past < mark.picture ∧ mark.picture < mark.future) ?_ ?_
    levels depth past between future chain sorted
  · intro _ depth past between future chain sorted mark member
    obtain ⟨picture, inside, rfl⟩ := List.mem_map.mp member
    simp only [List.pairwise_cons, List.pairwise_append, List.mem_append] at sorted
    exact ⟨sorted.1 picture (Or.inl inside),
      sorted.2.2.2 picture inside future (List.mem_singleton_self _)⟩
  · intro levels depth past left picture right future chain leftMarks rightMarks first second sorted
      mark member
    have split : past :: (left ++ picture :: right ++ [future]) =
        (past :: (left ++ [picture])) ++ (right ++ [future]) := by simp
    have before := sorted
    rw [split] at before
    have after : (picture :: (right ++ [future])).Pairwise (· < ·) := by
      refine sorted.sublist (List.Sublist.cons _ ?_)
      rw [List.append_assoc]
      exact List.sublist_append_right left _
    rcases List.mem_cons.mp member with rfl | member
    · refine ⟨(List.pairwise_cons.mp sorted).1 picture (by simp), ?_⟩
      exact (List.pairwise_cons.mp after).1 future (by simp)
    · rcases List.mem_append.mp member with inLeft | inRight
      · exact first (List.pairwise_append.mp before).1 mark inLeft
      · exact second after mark inRight

/-- A decoder keeps the two references of a picture, those that wait for its group to end, and one for
every layer in between. -/
theorem length_needs_chart {α : Type} (levels depth : Nat) (past : α) (between : List α) (future : α)
    (chain : List α) : ∀ mark ∈ chart levels depth past between future chain,
      mark.needs.length + mark.isReference.toNat ≤ chain.length + levels + 2 := by
  refine chart_induction (motive := fun levels _ _ _ _ chain marks => ∀ mark ∈ marks,
    mark.needs.length + mark.isReference.toNat ≤ chain.length + levels + 2) ?_ ?_
    levels depth past between future chain
  · intro levels depth past between future chain mark member
    obtain ⟨picture, _, rfl⟩ := List.mem_map.mp member
    simp only [Mark.needs, List.length_cons, Bool.toNat_false]
    omega
  · intro levels depth past left picture right future chain leftMarks rightMarks first second mark
      member
    rcases List.mem_cons.mp member with rfl | member
    · simp only [Mark.needs, List.length_cons, Bool.toNat_true]
      omega
    · rcases List.mem_append.mp member with inLeft | inRight
      · have fits := first mark inLeft
        rw [List.length_cons] at fits
        omega
      · have fits := second mark inRight
        omega

end Hierarchy

namespace Cursor

open Outline

variable {gop : Gop} {flags left : List Bool} {outlines done : List Outline} {cursor : Cursor}
  {skipped : Nat} {forced : Bool} {outline : Outline} {config : Config} {caps : Capabilities}

theorem Keyed.counted (keyed : Keyed done cursor) : 0 < cursor.gop.keysSinceIdr := by
  obtain ⟨idr, latest, counted⟩ := keyed.idr
  rw [← counted, keysWithin, List.countP_pos_iff]
  have key : idr.type.isKey = true := latest.fits.isKey
  exact ⟨idr, latest.listed, by simp [key, latest.earlier]⟩

theorem Reaches.keys_le (reaches : Reaches { gop } flags done cursor left)
    (fresh : gop.keysSinceIdr = 0) (some : 0 < gop.gopsPerIdr) :
    cursor.gop.keysSinceIdr ≤ cursor.gop.gopsPerIdr ∧ 0 < cursor.gop.gopsPerIdr := by
  induction reaches with
  | start => exact ⟨by rw [fresh]; exact Nat.zero_le _, some⟩
  | @turn done cursor left skipped forced _ _ ih =>
      obtain ⟨upTo, positive⟩ := ih
      rw [gop_after]
      rcases cursor.gop.nextTop_cases forced skipped with
        ⟨decided, _⟩ | ⟨decided, _, _, more⟩ | ⟨⟨_, _, decided⟩, _⟩
      · rw [decided]
        exact ⟨positive, positive⟩
      · rw [decided]
        exact ⟨Nat.lt_of_le_of_ne upTo more, positive⟩
      · rw [decided]
        exact ⟨upTo, positive⟩

section

variable (stage : Stage gop flags outlines done cursor left skipped forced)
include stage

theorem Stage.isKey_of_size (one : gop.size = 1) : (cursor.lead skipped forced).IsKey := by
  have same := stage.aligned.same
  rw [IsKey, type_lead]
  rcases cursor.gop.nextTop_cases forced skipped with
    ⟨decided, _⟩ | ⟨decided, _⟩ | ⟨_, unforced, short⟩
  · rw [decided]
    rfl
  · rw [decided]
    rfl
  · rcases stage.reaches.keyed stage.first (Nat.lt_of_lt_of_eq Nat.one_pos one.symm) with
      nothing | keyed
    · cases unforced.symm.trans (stage.forced_first nothing).2
    · have since := keyed.since
      rw [same.size, one] at short
      omega

theorem Stage.type_ne_intra (sized : 0 < gop.size) (fresh : gop.keysSinceIdr = 0)
    (one : gop.gopsPerIdr = 1) : (cursor.lead skipped forced).type ≠ .intra := by
  rw [type_lead]
  rcases cursor.gop.nextTop_cases forced skipped with
    ⟨decided, _⟩ | ⟨_, unforced, _, more⟩ | ⟨⟨other, notKey, decided⟩, _⟩
  · rw [decided]
    exact PictureType.noConfusion
  · rcases stage.reaches.keyed stage.first sized with nothing | keyed
    · cases unforced.symm.trans (stage.forced_first nothing).2
    · have counted := keyed.counted
      have upTo := (stage.reaches.keys_le fresh (Nat.lt_of_lt_of_eq Nat.one_pos one.symm)).1
      rw [stage.aligned.same.gopsPerIdr] at upTo more
      omega
  · rw [decided]
    rintro rfl
    cases notKey

theorem Stage.targets : (cursor.targets (cursor.next + skipped)).length ≤
      (if gop.multiReference then maxListReferences else 1) ∧
    ∀ name ∈ cursor.targets (cursor.next + skipped), name < cursor.next + skipped := by
  have aligned := stage.aligned
  rw [← aligned.same.multiReference]
  cases multi : cursor.gop.multiReference with
  | true =>
      have recalls := (stage.reaches.recalls stage.first).1
      rw [recalls.targets multi (Nat.le_add_right _ skipped)]
      refine ⟨?_, (List.pairwise_cons.mp (recalls.descends (Nat.le_add_right _ skipped))).1⟩
      rw [List.length_map, recentGroups, List.length_take]
      exact Nat.min_le_left ..
  | false =>
      have alone : cursor.targets (cursor.next + skipped) = cursor.anchor.toList := by
        simp [Cursor.targets, multi]
      rw [alone]
      rcases aligned.anchored with ⟨anchor, _⟩ | ⟨top, _, _, order, anchor⟩
      · simp [anchor]
      · have next := aligned.next
        rw [anchor]
        simp only [Option.toList_some, List.length_singleton, List.mem_singleton, forall_eq,
          Bool.false_eq_true, if_false]
        omega

theorem Stage.lead_past (suits : gop.Suits config caps)
    (multi : gop.multiReference = decide (1 < caps.maxPastRefs)) (sized : 0 < gop.size) :
    (cursor.lead skipped forced).past.length ≤ min caps.maxPastRefs maxListReferences ∧
      ∀ name ∈ (cursor.lead skipped forced).past, name < cursor.next + skipped := by
  by_cases key : (cursor.lead skipped forced).IsKey
  · have nothing : (cursor.lead skipped forced).past = [] := if_pos key
    rw [nothing]
    exact ⟨Nat.zero_le _, fun _ member => (List.not_mem_nil member).elim⟩
  · have past : (cursor.lead skipped forced).past = cursor.targets (cursor.next + skipped) :=
      if_neg key
    obtain ⟨few, before⟩ := stage.targets
    rw [past]
    refine ⟨?_, before⟩
    have several : 1 < gop.size := by
      apply Nat.lt_of_le_of_ne sized
      intro one
      exact key (stage.isKey_of_size one.symm)
    have predicts := suits.predicts several
    rw [multi] at few
    simp only [decide_eq_true_eq, maxListReferences] at few ⊢
    split at few <;> omega

theorem Stage.lead_dpb : (cursor.lead skipped forced).dpb.length + 1 ≤ maxDpbSize := by
  have few := stage.targets.1
  have kept : (cursor.lead skipped forced).dpb.length ≤ maxListReferences := by
    rw [lead, top]
    dsimp only
    split
    · exact Nat.zero_le _
    · apply Nat.le_trans few
      split <;> decide
  simp only [maxListReferences, maxDpbSize] at kept ⊢
  omega

theorem Stage.lead_conforms (suits : gop.Suits config caps)
    (multi : gop.multiReference = decide (1 < caps.maxPastRefs)) (sized : 0 < gop.size)
    (fresh : gop.keysSinceIdr = 0)
    (topOnly : caps.bPictureReferences = false → ∀ other ∈ outlines, 0 < other.depth →
      other.displayOrder ∉ (cursor.lead skipped forced).needs) :
    (cursor.lead skipped forced).Conforms config caps outlines where
  past := (stage.lead_past suits multi sized).1
  future := Nat.zero_le _
  dpb := stage.lead_dpb
  keysOnly keys := by
    have key := stage.isKey_of_size (suits.keysOnly keys).1
    exact ⟨key, if_pos key, rfl⟩
  idrOnly none := stage.type_ne_intra sized fresh (suits.idrOnly none)
  pastOnly _ := ⟨rfl, rfl⟩
  topOnly := topOnly
  earlier := (stage.lead_past suits multi sized).2
  later _ member := (List.not_mem_nil member).elim
  pair deep := absurd deep (Nat.lt_irrefl 0)

theorem Stage.plain_inner (one : gop.maxBDepth ≤ 1) (here : outline ∈ cursor.turn skipped forced)
    (deep : 0 < outline.depth) : outline.isReference = false := by
  obtain ⟨first, _, mark, rfl, _, _, inChart⟩ := stage.charted here deep
  have none := any_chart (gop.maxBDepth - 1) 1 first.displayOrder
    (List.range' cursor.next skipped) (cursor.next + skipped) []
  rw [Nat.sub_eq_zero_of_le one, decide_eq_false (Nat.lt_irrefl 0), Bool.false_and,
    List.any_eq_false] at none
  rw [Nat.sub_eq_zero_of_le one] at inChart
  exact Bool.not_eq_true _ |>.mp (none mark inChart)

theorem Stage.inner_conforms (suits : gop.Suits config caps)
    (shallow : gop.maxBDepth + 2 ≤ maxDpbSize) (here : outline ∈ cursor.turn skipped forced)
    (deep : 0 < outline.depth)
    (topOnly : caps.bPictureReferences = false → ∀ other ∈ outlines, 0 < other.depth →
      other.displayOrder ∉ outline.needs) : outline.Conforms config caps outlines := by
  obtain ⟨first, _, mark, rfl, _, next, inChart⟩ := stage.charted here deep
  have inside := List.mem_range'_1.mp
    ((pictures_chart ..).mem_iff.mp (List.mem_map_of_mem (f := Mark.picture) inChart))
  have few := stage.closes.few
  rw [stage.aligned.same.bPerGroup] at few
  have reorders : 0 < gop.bPerGroup := by omega
  obtain ⟨pastRefs, futureRefs⟩ := suits.reorders reorders
  have sorted : (first.displayOrder ::
      (List.range' cursor.next skipped ++ [cursor.next + skipped])).Pairwise (· < ·) := by
    rw [← next, ← List.range'_1_concat, ← List.range'_succ]
    exact List.pairwise_lt_range'
  obtain ⟨before, after⟩ := between_chart _ _ _ _ _ _ sorted mark inChart
  have kept := length_needs_chart _ _ _ _ _ _ mark inChart
  constructor
  case past => exact Nat.le_min.mpr ⟨pastRefs, Nat.le_of_ble_eq_true rfl⟩
  case future => exact Nat.le_min.mpr ⟨futureRefs, Nat.le_of_ble_eq_true rfl⟩
  case dpb =>
    rw [List.length_nil] at kept
    apply Nat.le_trans kept
    omega
  case keysOnly => exact fun keys => absurd (suits.keysOnly keys).2 (Nat.ne_of_gt reorders)
  case idrOnly => exact fun _ => PictureType.noConfusion
  case pastOnly => exact fun none => absurd (suits.pastOnly none) (Nat.ne_of_gt reorders)
  case topOnly => exact topOnly
  case earlier =>
    intro name member
    rw [List.mem_singleton.mp member]
    exact before
  case later =>
    intro name member
    rw [List.mem_singleton.mp member]
    exact after
  case pair => exact fun _ => ⟨rfl, rfl⟩

end

end Cursor

namespace Encoder

open Recorded Outline

variable {B : Backend} {start : Recorded B} {config : Config} {mode : BlockingMode}
  {opening encoder : Encoder B.recorded} {trail : List (Call × Except EncodeError Answer)}

/-- Whatever a request refers to was issued as a reference picture, and under no other number. -/
theorem Reachable.needs_reference (nothing : start.calls = [])
    (reachable : Reachable (B := B.recorded) start SameCalls encoder) {outline other : Outline}
    (listed : outline ∈ encoder.backend.requests.map Request.outline)
    (issued : other ∈ encoder.backend.requests.map Request.outline)
    (needed : other.displayOrder ∈ outline.needs) : other.isReference = true := by
  obtain ⟨refers, distinct⟩ := reachable.outlines nothing
  obtain ⟨found, among, offered⟩ := (refers.offered listed needed).resolve_left List.not_mem_nil
  obtain ⟨isReference, order⟩ := eq_of_mem_offers offered
  have orders : ((encoder.backend.requests.map Request.outline).map displayOrder).Nodup := by
    rw [List.map_map]
    exact distinct
  have same := List.inj_on_of_nodup_map orders issued among order
  rw [same]
  exact isReference

/-- No request asks for more than the backend offers. -/
theorem Calls.conforms (nothing : start.calls = [])
    (created : ((create (B := B.recorded) start config mode : Action Unit (Encoder B.recorded))
      ()).result = .ok opening)
    (calls : Calls SameCalls opening trail encoder) :
    ∀ request ∈ encoder.backend.requests, request.outline.Conforms config
      (B.capabilities start.inner) (encoder.backend.requests.map Request.outline) := by
  have reachable := calls.reachable (.created config mode created)
  obtain ⟨frames, foretold⟩ := calls.foretold nothing created
  obtain ⟨valid, gop, made, rfl⟩ := create_eq_ok created
  obtain ⟨sized, fresh, _⟩ := Gop.fresh_of_ofConfig? made
  have suits := Gop.suits_of_ofConfig? made
  intro request asked
  have listed := List.mem_map_of_mem (f := Request.outline) asked
  have topOnly : (B.capabilities start.inner).bPictureReferences = false →
      ∀ other ∈ encoder.backend.requests.map Request.outline, 0 < other.depth →
        other.displayOrder ∉ request.outline.needs := by
    intro none other issued deep needed
    obtain ⟨_, _, _, _, _, _, _, _, stage, here⟩ := foretold.stage issued
    have plain := stage.plain_inner (suits.topOnly none) here deep
    cases plain.symm.trans (reachable.needs_reference nothing listed issued needed)
  obtain ⟨_, _, _, _, _, _, _, _, stage, here⟩ := foretold.stage listed
  rcases Cursor.mem_turn here with lead | ⟨_, deep, _⟩
  · rw [lead] at topOnly ⊢
    exact stage.lead_conforms suits (Gop.multiReference_of_ofConfig? made) sized fresh topOnly
  · exact stage.inner_conforms suits (Gop.shallow_of_ofConfig? valid made) here deep topOnly

/-- A backend that has two past references and neither reference B-pictures nor key pictures other than
IDR. -/
def modestDevice : Device := Device.create .immediate (some
  { maxPastRefs := 2, bPictureReferences := false, intraKeyPictures := false })

def modest : List (Call × Except EncodeError Answer) × Encoder Backend.simulated.recorded :=
  film modestDevice { gopSize := 7, maxBFrames := 3, bDepth := 3, idrInterval := 2 } .blocking
    (List.replicate 9 (.encode {}))

theorem conforms_modest :
    modest.2.backend.requests.map (fun request => (request.picture.displayOrder,
        request.picture.type, request.picture.depth)) =
      [(0, .idr, 0), (4, .predicted, 0), (1, .bidirectional, 1), (2, .bidirectional, 1),
        (3, .bidirectional, 1), (6, .predicted, 0), (5, .bidirectional, 1), (7, .idr, 0),
        (8, .predicted, 0)] ∧
    ∀ request ∈ modest.2.backend.requests, request.outline.Conforms
      { gopSize := 7, maxBFrames := 3, bDepth := 3, idrInterval := 2 }
      (Backend.simulated.capabilities modestDevice)
      (modest.2.backend.requests.map Request.outline) := by
  have created : ((create (B := Backend.simulated.recorded) { inner := modestDevice }
      { gopSize := 7, maxBFrames := 3, bDepth := 3, idrInterval := 2 } .blocking :
        Action Unit (Encoder Backend.simulated.recorded)) ()).result =
      .ok (onDevice modestDevice
        { gopSize := 7, maxBFrames := 3, bDepth := 3, idrInterval := 2 } .blocking) := rfl
  exact ⟨by decide +kernel, Calls.conforms rfl created (calls_performAll _ _)⟩

end Encoder

end VideoSchedule

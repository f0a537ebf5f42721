import VideoSchedule.Proofs.KeyPictures

/-!
Streams with several past references. An anchor is predicted from the last reference pictures of the
two groups before it. Where a group has reference B-pictures, the last one of them takes the place of
its anchor.
-/

namespace VideoSchedule

open Hierarchy

namespace Mark

variable {α : Type} {marks : List (Mark α)}

theorem last_of_any (some : marks.any isReference = true) (first second : α) :
    last first marks = last second marks := by
  induction marks generalizing first second with
  | nil => cases some
  | cons mark rest ih =>
      rw [last, last]
      cases reference : mark.isReference with
      | true => rfl
      | false =>
          rw [List.any_cons, reference, Bool.false_or] at some
          exact ih some _ _

theorem last_of_none (none : marks.any isReference = false) (previous : α) :
    last previous marks = previous := by
  rcases last_cases previous marks with ⟨_, same⟩ | ⟨some, _⟩
  · exact same
  · cases none.symm.trans some

end Mark

namespace Hierarchy

variable {α : Type}

theorem any_chart (levels depth : Nat) (past : α) (between : List α) (future : α) (chain : List α) :
    (chart levels depth past between future chain).any Mark.isReference =
      (decide (0 < levels) && decide (1 < between.length)) := by
  cases levels with
  | zero => simp [chart, level]
  | succ levels =>
      by_cases several : 1 < between.length
      · obtain ⟨left, picture, right, _, chartEq⟩ :=
          chart_several levels depth past future chain several
        rw [chartEq]
        simp [several]
      · rw [chart, dif_neg several]
        simp [level, several]

theorem last_level (depth : Nat) (past : α) {between : List α} (future : α) (chain : List α)
    (some : between ≠ []) : ∃ front last,
      level depth past between future chain = front ++ [last] ∧ last.isReference = false ∧
        last.past = Mark.last past (level depth past between future chain) ∧
        last.future = future ∧ last.chain = chain := by
  obtain ⟨front, picture, rfl⟩ := List.eq_nil_or_concat' between |>.resolve_left some
  refine ⟨level depth past front future chain, _, List.map_append, rfl, ?_, rfl, rfl⟩
  rw [Mark.last_of_none]
  simp [level]

theorem last_chart (levels depth : Nat) (past : α) {between : List α} (future : α) (chain : List α)
    (some : between ≠ []) : ∃ front last,
      chart levels depth past between future chain = front ++ [last] ∧ last.isReference = false ∧
        last.past = Mark.last past (chart levels depth past between future chain) ∧
        last.future = future ∧ last.chain = chain := by
  induction levels generalizing depth past between with
  | zero => exact last_level depth past future chain some
  | succ levels ih =>
      by_cases several : 1 < between.length
      · obtain ⟨left, picture, right, rfl, halves, chartEq⟩ :=
          chart_halves levels depth past future chain several
        rw [List.length_append, List.length_cons] at several
        have rest : right ≠ [] := List.length_pos_iff.mp (by omega)
        obtain ⟨front, final, split, plain, pastEq, futureEq, chainEq⟩ :=
          @ih (depth + 1) picture right rest
        refine ⟨{ picture, depth, isReference := true, past, future, chain } ::
          (chart levels (depth + 1) past left picture (future :: chain) ++ front), final, ?_, plain,
          ?_, futureEq, chainEq⟩
        · rw [chartEq, split, List.cons_append, List.append_assoc]
        · rw [pastEq, chartEq, Mark.last, if_pos rfl, Mark.last_append]
          -- where the second half has no reference pictures, the first one has none either
          have first := any_chart levels (depth + 1) past left picture (future :: chain)
          have second := any_chart levels (depth + 1) picture right future chain
          cases inner : (chart levels (depth + 1) picture right future chain).any
              Mark.isReference with
          | true => exact Mark.last_of_any inner _ _
          | false =>
              rw [inner, eq_comm, Bool.and_eq_false_iff, decide_eq_false_iff_not,
                decide_eq_false_iff_not] at second
              have none : (chart levels (depth + 1) past left picture (future :: chain)).any
                  Mark.isReference = false := by
                rw [first, Bool.and_eq_false_iff, decide_eq_false_iff_not, decide_eq_false_iff_not]
                exact second.imp id fun short => by omega
              rw [Mark.last_of_none none]
      · rw [chart, dif_neg several]
        exact last_level depth past future chain some

end Hierarchy

namespace Outline

/-- A top layer picture, and the B-pictures of its group that others may refer to, latest first. -/
structure MiniGop where
  anchor : Outline
  inner : List Outline := []
deriving DecidableEq, Repr

def MiniGop.closer (group : MiniGop) : Outline := group.inner.headD group.anchor

def joinGroups (groups : List MiniGop) (outline : Outline) : List MiniGop :=
  if outline.depth = 0 then
    { anchor := outline } :: if outline.type = .idr then [] else groups
  else
    match groups with
    | [] => []
    | group :: rest =>
      (if outline.isReference then { group with inner := outline :: group.inner } else group) :: rest

/-- The groups since the last IDR picture, itself included, latest first. -/
def miniGops (outlines : List Outline) : List MiniGop := outlines.foldl joinGroups []

def recentGroups (outlines : List Outline) : List MiniGop :=
  (miniGops outlines).take maxListReferences

theorem join_marks {marks : List (Mark Nat)} (deep : ∀ mark ∈ marks, 0 < mark.depth)
    (group : MiniGop) (rest : List MiniGop) : ∃ inner,
      (marks.map Mark.outline).foldl joinGroups (group :: rest) = { group with inner } :: rest ∧
      ({ group with inner } : MiniGop).closer.displayOrder =
        Mark.last group.closer.displayOrder marks ∧
      (inner = [] ↔ group.inner = [] ∧ marks.any Mark.isReference = false) := by
  induction marks generalizing group with
  | nil => exact ⟨group.inner, rfl, rfl, by simp⟩
  | cons mark later ih =>
      have below : ¬mark.outline.depth = 0 := Nat.ne_of_gt (deep mark (List.mem_cons_self ..))
      have others : ∀ mark ∈ later, 0 < mark.depth :=
        fun mark member => deep mark (List.mem_cons_of_mem _ member)
      rw [List.map_cons, List.foldl_cons, joinGroups, if_neg below, Mark.last, List.any_cons]
      cases reference : mark.isReference with
      | true =>
          obtain ⟨inner, joined, closer, none⟩ :=
            ih others { group with inner := mark.outline :: group.inner }
          refine ⟨inner, ?_, closer, ?_⟩
          · rw [← joined]
            simp [Mark.outline, reference]
          · rw [none]
            simp
      | false =>
          obtain ⟨inner, joined, closer, none⟩ := ih others group
          refine ⟨inner, ?_, closer, ?_⟩
          · rw [← joined]
            simp [Mark.outline, reference]
          · rw [none]
            simp

end Outline

namespace Cursor

open Outline

variable {gop : Gop} {flags left : List Bool} {done : List Outline} {cursor : Cursor}
  {skipped order : Nat} {forced : Bool}

theorem miniGops_turn (done : List Outline) (cursor : Cursor) (skipped : Nat) (forced : Bool) :
    ∃ inner, miniGops (done ++ cursor.turn skipped forced) =
        { anchor := cursor.lead skipped forced, inner } ::
          (if (cursor.lead skipped forced).type = .idr then [] else miniGops done) ∧
      ({ anchor := cursor.lead skipped forced, inner } : MiniGop).closer.displayOrder =
        Mark.last (cursor.next + skipped)
          (cursor.marks (List.range' cursor.next skipped) (cursor.next + skipped)) ∧
      (inner = [] ↔ (cursor.marks (List.range' cursor.next skipped)
        (cursor.next + skipped)).any Mark.isReference = false) := by
  obtain ⟨inner, joined, closer, none⟩ := join_marks
    (marks_deep cursor (List.range' cursor.next skipped) (cursor.next + skipped))
    { anchor := cursor.lead skipped forced }
    (if (cursor.lead skipped forced).type = .idr then [] else miniGops done)
  refine ⟨inner, ?_, closer, ?_⟩
  · rw [miniGops, List.foldl_append, ← joined]
    rfl
  · rw [none]
    simp

/-- What a cursor remembers of the groups before it. -/
structure Recalls (done : List Outline) (cursor : Cursor) : Prop where
  recent : cursor.recent =
    ((recentGroups done).map fun group => group.closer.displayOrder).reverse
  anchor : cursor.anchor = (miniGops done).head?.map fun group => group.anchor.displayOrder
  inside : ∀ group ∈ miniGops done, group.anchor.displayOrder < cursor.next
  closes : ∀ group ∈ miniGops done, group.closer.displayOrder ≤ group.anchor.displayOrder ∧
    (group.inner = [] ↔ group.closer.displayOrder = group.anchor.displayOrder)
  ordered : (miniGops done).Pairwise fun later earlier =>
    earlier.anchor.displayOrder < later.closer.displayOrder
  opens : ∀ group rest, miniGops done = group :: rest → (rest = [] ↔ group.anchor.IsIdr)

theorem last_upTo (cursor : Cursor) (skipped : Nat) {order : Nat}
    (orderEq : order = cursor.next + skipped) :
    cursor.next ≤ Mark.last order (cursor.marks (List.range' cursor.next skipped) order) ∧
    Mark.last order (cursor.marks (List.range' cursor.next skipped) order) ≤ order ∧
    ((cursor.marks (List.range' cursor.next skipped) order).any Mark.isReference = false ↔
      Mark.last order (cursor.marks (List.range' cursor.next skipped) order) = order) := by
  rcases Mark.last_cases order (cursor.marks (List.range' cursor.next skipped) order) with
    ⟨none, same⟩ | ⟨some, mark, member, _, same⟩
  · rw [same, none]
    exact ⟨by omega, Nat.le_refl _, fun _ => rfl, fun _ => rfl⟩
  · have inside := List.mem_range'_1.mp (groupMarks_inside _ _ _ _ mark member)
    rw [← same, some]
    exact ⟨inside.1, by omega, fun none => (by cases none), fun equal => by omega⟩

theorem room_lastType {type : PictureType} {marks : List (Mark Nat)}
    (alone : type = .idr → marks = []) (recent : List Nat) :
    PastPictures.room (lastType type marks) (recent.take maxListReferences).reverse =
      (if type = .idr then [] else recent.take 1).reverse := by
  by_cases idr : type = .idr
  · rw [alone idr, if_pos idr, lastType, List.any_nil, idr]
    rfl
  · have goesOn : lastType type marks ≠ .idr := by
      unfold lastType
      split
      · exact PictureType.noConfusion
      · exact idr
    rw [if_neg idr]
    cases recent with
    | nil => simp [PastPictures.room]
    | cons first rest =>
        cases rest with
        | nil => simp [PastPictures.room, goesOn, maxListReferences]
        | cons second rest => simp [PastPictures.room, goesOn, maxListReferences]

theorem Recalls.turn (recalls : Recalls done cursor)
    (alone : (cursor.lead skipped forced).IsIdr → skipped = 0)
    (starts : miniGops done = [] → (cursor.lead skipped forced).IsIdr) :
    Recalls (done ++ cursor.turn skipped forced) (cursor.after skipped forced) := by
  obtain ⟨inner, joined, closer, none⟩ := miniGops_turn done cursor skipped forced
  obtain ⟨notBefore, upTo, same⟩ := last_upTo cursor skipped rfl
  have earlier : ∀ group ∈ (if (cursor.lead skipped forced).type = .idr then [] else miniGops done),
      group ∈ miniGops done := by
    intro group member
    split at member
    · cases member
    · exact member
  refine ⟨?_, ?_, ?_, ?_, ?_, ?_⟩
  · have marks : (cursor.lead skipped forced).type = .idr →
        cursor.marks (List.range' cursor.next skipped) (cursor.next + skipped) = [] := by
      intro idr
      rw [alone idr]
      exact groupMarks_nil ..
    have room := room_lastType marks
      ((miniGops done).map fun group => group.closer.displayOrder)
    rw [← List.map_take, ← recentGroups, ← recalls.recent] at room
    rw [recentGroups, joined, maxListReferences, List.take_succ_cons, List.map_cons,
      List.reverse_cons, closer]
    refine congrArg (· ++ _) (room.trans ?_)
    split
    · rfl
    · rw [← List.map_take]
  · rw [joined]
    rfl
  · rw [joined, next_after]
    intro group member
    rcases List.mem_cons.mp member with rfl | member
    · exact Nat.lt_succ_self _
    · have inside := recalls.inside group (earlier group member)
      omega
  · rw [joined]
    intro group member
    rcases List.mem_cons.mp member with rfl | member
    · rw [closer, none, same]
      exact ⟨upTo, Iff.rfl⟩
    · exact recalls.closes group (earlier group member)
  · rw [joined]
    refine List.pairwise_cons.mpr ⟨fun group member => ?_, ?_⟩
    · rw [closer]
      exact Nat.lt_of_lt_of_le (recalls.inside group (earlier group member)) notBefore
    · split
      · exact List.Pairwise.nil
      · exact recalls.ordered
  · rw [joined]
    rintro group rest ⟨⟩
    constructor
    · intro nothing
      split at nothing
      next idr => exact idr
      next => exact starts nothing
    · intro idr
      exact if_pos idr

theorem Reaches.recalls (reaches : Reaches { gop } flags done cursor left)
    (first : flags.headD true = true) :
    Recalls done cursor ∧ (done ≠ [] → miniGops done ≠ []) := by
  induction reaches with
  | start =>
      refine ⟨⟨rfl, rfl, ?_, ?_, List.Pairwise.nil, ?_⟩, fun some => absurd rfl some⟩
      · simp [miniGops]
      · simp [miniGops]
      · rintro group rest ⟨⟩
  | @turn done cursor left skipped forced reaches closes ih =>
      refine ⟨ih.1.turn closes.eq_zero_of_idr fun nothing => ?_, fun _ => ?_⟩
      · have none : done = [] := by
          apply Classical.byContradiction
          intro some
          exact ih.2 some nothing
        obtain ⟨_, isForced⟩ := (reaches.aligned first).forced_first closes first none
        rw [IsIdr, type_lead, isForced]
        rfl
      · obtain ⟨inner, joined, _⟩ := miniGops_turn done cursor skipped forced
        rw [joined]
        exact List.cons_ne_nil _ _

theorem nearest_pair {first second : Nat} (ordered : first < second) (before : second < order) :
    PastPictures.nearest order [first, second] = [second, first] := by
  have farther : PastPictures.precedes order first second = false := by
    simp only [PastPictures.precedes, PastPictures.distance, Bool.or_eq_false_iff,
      Bool.and_eq_false_iff, beq_eq_false_iff_ne]
    exact ⟨decide_eq_false (by omega), Or.inl (by omega)⟩
  simp [PastPictures.nearest, PastPictures.insertOrder, farther]

theorem Recalls.descends (recalls : Recalls done cursor) (after : cursor.next ≤ order) :
    (order :: (recentGroups done).map fun group => group.closer.displayOrder).Pairwise
      fun later earlier => earlier < later := by
  have upTo : ∀ group ∈ recentGroups done,
      group.closer.displayOrder ≤ group.anchor.displayOrder ∧
        group.anchor.displayOrder < cursor.next := by
    intro group member
    have known := List.mem_of_mem_take member
    exact ⟨(recalls.closes group known).1, recalls.inside group known⟩
  refine List.pairwise_cons.mpr ⟨fun earlier member => ?_, ?_⟩
  · obtain ⟨group, inGroups, rfl⟩ := List.mem_map.mp member
    have before := upTo group inGroups
    omega
  · have ordered := recalls.ordered.sublist (List.take_sublist maxListReferences _)
    refine List.pairwise_map.mpr (ordered.imp_of_mem fun _ inside earlier => ?_)
    exact Nat.lt_of_le_of_lt (upTo _ inside).1 earlier

theorem Recalls.targets (recalls : Recalls done cursor) (multi : cursor.gop.multiReference = true)
    (after : cursor.next ≤ order) : cursor.targets order =
      (recentGroups done).map fun group => group.closer.displayOrder := by
  have descends := recalls.descends after
  rw [Cursor.targets, if_pos multi, recalls.recent]
  rw [recentGroups] at descends ⊢
  cases groups : miniGops done with
  | nil => rfl
  | cons group rest =>
      cases rest with
      | nil => rfl
      | cons before others =>
          rw [groups] at descends
          obtain ⟨shown, inOrder⟩ := List.pairwise_cons.mp descends
          exact nearest_pair ((List.pairwise_cons.mp inOrder).1 _ (List.mem_cons_self ..))
            (shown _ (List.mem_cons_self ..))

end Cursor

namespace Encoder

open Recorded

variable {B : Backend} {start : Recorded B} {encoder : Encoder B.recorded}

/-- With several past references an anchor is predicted from the last reference pictures of the two
groups before it, the nearest one first. These are the anchors of the groups if, and only if, none of
them has reference B-pictures. -/
theorem Reachable.anchors_recall (nothing : start.calls = [])
    (reachable : Reachable (B := B.recorded) start SameCalls encoder)
    (multi : 1 < (B.capabilities start.inner).maxPastRefs) {place : Nat}
    {request : Request B.Image} (asked : encoder.backend.requests[place]? = some request)
    (top : request.picture.depth = 0) (plain : request.picture.type.isKey = false)
    {groups : List Outline.MiniGop}
    (recent : groups =
      Outline.recentGroups ((encoder.backend.requests.take place).map Request.outline)) :
    request.outline.future = [] ∧
    request.outline.past = groups.map (fun group => group.closer.displayOrder) ∧
    (request.picture.displayOrder :: request.outline.past).Pairwise (fun later earlier =>
      earlier < later) ∧
    (request.outline.past = groups.map (fun group => group.anchor.displayOrder) ↔
      ∀ group ∈ groups, group.inner = []) := by
  obtain ⟨config, gop, _, frames, _, made, _, _, foretold⟩ := reachable.foretold nothing
  obtain ⟨done, cursor, left, skipped, forced, stage, within, listed⟩ := foretold.turn asked
  rcases Cursor.turn_cases listed with ⟨here, lead⟩ | ⟨_, _, deep, _⟩
  · have before : (encoder.backend.requests.take place).map Request.outline = done := by
      obtain ⟨more, split, _⟩ := stage.split
      rw [List.map_take, split, List.take_left' (by omega)]
    rw [before] at recent
    have recalls := (stage.reaches.recalls stage.first).1
    have several : cursor.gop.multiReference = true := by
      rw [stage.aligned.same.multiReference, Gop.multiReference_of_ofConfig? made]
      exact decide_eq_true multi
    have order : request.picture.displayOrder = cursor.next + skipped :=
      congrArg Outline.displayOrder lead
    have past : request.outline.past = groups.map fun group => group.closer.displayOrder := by
      have notKey : (cursor.lead skipped forced).type.isKey = false := by
        rw [← lead]
        exact plain
      rw [lead, recent, ← recalls.targets several (Nat.le_add_right _ skipped)]
      exact if_neg fun isKey => absurd (notKey.symm.trans isKey) Bool.false_ne_true
    have known : ∀ group ∈ groups, group ∈ Outline.miniGops done := by
      rw [recent]
      exact fun group => List.mem_of_mem_take
    refine ⟨congrArg Outline.future lead, past, ?_, ?_⟩
    · rw [past, order, recent]
      exact recalls.descends (Nat.le_add_right _ skipped)
    · rw [past, List.map_inj_left]
      exact forall₂_congr fun group member => ((recalls.closes group (known group member)).2).symm
  · exact absurd top (Nat.ne_of_gt deep)

def doubleDevice : Device := Device.create .immediate (some { maxPastRefs := 2 })

/-- Five frames and a group of two B-pictures, the first of them a reference picture. -/
def doubled : Encoder Backend.simulated.recorded :=
  (film doubleDevice { bDepth := 2 } .blocking (List.replicate 5 (.encode {}))).2

theorem doubled_reachable :
    Reachable (B := Backend.simulated.recorded) { inner := doubleDevice } SameCalls doubled :=
  (Calls.none.performAll _).reachable (.created { bDepth := 2 } .blocking rfl)

theorem anchors_recall_doubled :
    ∃ request, doubled.backend.requests[4]? = some request ∧ request.picture.displayOrder = 4 ∧
      (Outline.recentGroups ((doubled.backend.requests.take 4).map Request.outline)).map
        (fun group => (group.anchor.displayOrder, group.closer.displayOrder)) = [(3, 1), (0, 0)] ∧
      request.outline.future = [] ∧
      request.outline.past =
        (Outline.recentGroups ((doubled.backend.requests.take 4).map Request.outline)).map
          (fun group => group.closer.displayOrder) ∧
      (request.picture.displayOrder :: request.outline.past).Pairwise (fun later earlier =>
        earlier < later) ∧
      (request.outline.past =
          (Outline.recentGroups ((doubled.backend.requests.take 4).map Request.outline)).map
            (fun group => group.anchor.displayOrder) ↔
        ∀ group ∈ Outline.recentGroups ((doubled.backend.requests.take 4).map Request.outline),
          group.inner = []) := by
  have asked : (doubled.backend.requests[4]?.map fun request => (request.picture.displayOrder,
      request.picture.depth, request.picture.type)) = some (4, 0, .predicted) := by decide +kernel
  obtain ⟨request, asked, same⟩ := Option.map_eq_some_iff.mp asked
  obtain ⟨order, top, type⟩ := Prod.mk.inj same |>.imp id Prod.mk.inj
  have plain : request.picture.type.isKey = false := by rw [type]; rfl
  exact ⟨request, asked, order, by decide +kernel,
    Reachable.anchors_recall rfl doubled_reachable (by decide) asked top plain rfl⟩

theorem recalls_inner_picture :
    Reachable (B := Backend.simulated.recorded) { inner := doubleDevice } SameCalls doubled ∧
      doubled.failed = false ∧ doubled.failedPictures = 0 ∧
      doubled.backend.requests.map (fun request => (request.picture.displayOrder,
        request.picture.depth, request.picture.type)) =
          [(0, 0, .idr), (3, 0, .predicted), (1, 1, .bidirectional), (2, 2, .bidirectional),
            (4, 0, .predicted)] ∧
      ∃ request, doubled.backend.requests[4]? = some request ∧
        request.past.map (fun reference => (reference.info.displayOrder, reference.info.type)) =
          [(1, .bidirectional), (0, .idr)] := by
  refine ⟨doubled_reachable, by decide +kernel, by decide +kernel, by decide +kernel, ?_⟩
  have asked : (doubled.backend.requests[4]?.map fun request => request.past.map fun reference =>
      (reference.info.displayOrder, reference.info.type)) =
      some [(1, .bidirectional), (0, .idr)] := by
    decide +kernel
  exact Option.map_eq_some_iff.mp asked

end Encoder

end VideoSchedule

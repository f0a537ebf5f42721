import VideoSchedule.Proofs.MultiReference

/-!
What a request finds in the pictures that the request before it leaves, with several past references.
B-pictures find what they refer to once their group has begun. An anchor does after an IDR picture, or
after a group with B-pictures; and neither it nor the group after it does if the groups before have
reference B-pictures.
-/

namespace VideoSchedule

open Hierarchy

namespace Outline

/-- When a request finds what it refers to in what `previous` leaves, after the requests `before`. -/
inductive Finds (before : List Outline) (previous request : Outline) : Prop where
  | key (isKey : request.IsKey)
  | within (deep : 0 < previous.depth) (within : 0 < request.depth)
  | opening (top : previous.depth = 0) (deep : 0 < request.depth)
      (plain : ∀ group ∈ (miniGops before).take 1, group.inner = [])
  | anchor (top : request.depth = 0) (follows : previous.type = .idr ∨ 0 < previous.depth)
      (plain : ∀ group ∈ recentGroups (before ++ [previous]), group.inner = [])

inductive Trails (last : Outline) : List MiniGop → Prop where
  | anchor {group : MiniGop} {rest : List MiniGop} (top : last.depth = 0) (same : group.anchor = last)
      (leaves : last.leaves = [last.displayOrder]) : Trails last (group :: rest)
  | inner {group earlier : MiniGop} {rest : List MiniGop} (deep : 0 < last.depth)
      (leaves : ∀ name, name ∈ last.leaves ↔
        name = (if group.inner = [] then earlier.anchor.displayOrder
          else group.closer.displayOrder) ∨ name = group.anchor.displayOrder) :
      Trails last (group :: earlier :: rest)

end Outline

namespace Cursor

open Outline

variable {gop : Gop} {flags left : List Bool} {done outlines : List Outline} {cursor : Cursor}
  {skipped order index : Nat} {forced : Bool} {previous request : Outline}

theorem Recalls.before_anchor (recalls : Recalls done cursor) {start : Nat}
    (anchor : cursor.anchor = some start) :
    ∃ group rest, miniGops done = group :: rest ∧ group.anchor.displayOrder = start := by
  rw [recalls.anchor, Option.map_eq_some_iff] at anchor
  obtain ⟨group, head, same⟩ := anchor
  obtain ⟨rest, split⟩ := List.head?_eq_some_iff.mp head
  exact ⟨group, rest, split, same⟩

theorem Recalls.marks_turn (recalls : Recalls done cursor)
    (opens : cursor.anchor = none → skipped = 0) (some : skipped ≠ 0) (order : Nat) :
    ∃ group rest, miniGops done = group :: rest ∧
      cursor.marks (List.range' cursor.next skipped) order =
        chart (cursor.gop.maxBDepth - 1) 1 group.anchor.displayOrder
          (List.range' cursor.next skipped) order [] := by
  cases anchor : cursor.anchor with
  | none => exact absurd (opens anchor) some
  | some start =>
      obtain ⟨group, rest, split, same⟩ := recalls.before_anchor anchor
      refine ⟨group, rest, split, ?_⟩
      simp only [marks, groupMarks, anchor, same]

theorem Recalls.trails_turn (recalls : Recalls done cursor)
    (alone : (cursor.lead skipped forced).IsIdr → skipped = 0)
    (opens : cursor.anchor = none → skipped = 0) :
    ∃ last, (cursor.turn skipped forced).getLast? = some last ∧
      Trails last (miniGops (done ++ cursor.turn skipped forced)) := by
  obtain ⟨inner, joined, closer, none⟩ := miniGops_turn done cursor skipped forced
  rw [joined]
  by_cases nothing : skipped = 0
  · have turn : cursor.turn skipped forced = [cursor.lead skipped forced] := by
      rw [Cursor.turn, group, nothing, List.range'_zero, marks, groupMarks_nil]
      rfl
    refine ⟨cursor.lead skipped forced, by rw [turn]; rfl, .anchor rfl rfl ?_⟩
    rw [leaves, lead, top, nothing, List.range'_zero, if_pos (Or.inr rfl)]
    rfl
  · obtain ⟨earlier, rest, split, marksEq⟩ :=
      recalls.marks_turn opens nothing (cursor.next + skipped)
    have goesOn : (cursor.lead skipped forced).type ≠ .idr := fun idr => nothing (alone idr)
    have some : List.range' cursor.next skipped ≠ [] := by
      rw [Ne, List.range'_eq_nil_iff]
      exact nothing
    obtain ⟨front, last, chartEq, plain, pastEq, futureEq, chainEq⟩ :=
      last_chart (cursor.gop.maxBDepth - 1) 1 earlier.anchor.displayOrder (cursor.next + skipped) []
        some
    have deep : 0 < last.depth := by
      refine marks_deep cursor (List.range' cursor.next skipped) (cursor.next + skipped) last ?_
      rw [marksEq, chartEq]
      exact List.mem_append_right _ (List.mem_singleton_self last)
    refine ⟨last.outline, ?_, ?_⟩
    · rw [Cursor.turn, group, marksEq, chartEq, List.map_append, ← List.cons_append]
      exact List.getLast?_concat
    · rw [if_neg goesOn, split]
      refine .inner deep fun name => ?_
      have past : last.past = if inner = [] then earlier.anchor.displayOrder
          else Mark.last (cursor.next + skipped)
            (cursor.marks (List.range' cursor.next skipped) (cursor.next + skipped)) := by
        rw [pastEq, ← marksEq]
        split
        next empty => exact Mark.last_of_none (none.mp empty) _
        next others =>
          refine Mark.last_of_any ?_ _ _
          rw [← Bool.not_eq_false]
          exact fun nobody => others (none.mpr nobody)
      rw [closer, ← past, order_lead]
      simp [leaves, Mark.outline, Mark.needs, plain, futureEq, chainEq]

theorem Reaches.trails (reaches : Reaches { gop } flags done cursor left)
    (first : flags.headD true = true) (begun : done ≠ []) :
    ∃ last, done.getLast? = some last ∧ Trails last (miniGops done) := by
  cases reaches with
  | start => exact absurd rfl begun
  | @turn done cursor left skipped forced reaches closes =>
      obtain ⟨last, final, trails⟩ := (reaches.recalls first).1.trails_turn closes.eq_zero_of_idr
        ((reaches.aligned first).opens closes first)
      exact ⟨last, by rw [List.getLast?_append, final]; rfl, trails⟩

theorem Recalls.leaves_closers (recalls : Recalls done cursor)
    (trails : Trails previous (miniGops done)) :
    (∀ group ∈ recentGroups done, group.closer.displayOrder ∈ previous.leaves) ↔
      (previous.type = .idr ∨ 0 < previous.depth) ∧
        ∀ group ∈ recentGroups done, group.inner = [] := by
  have closes := recalls.closes
  have ordered := recalls.ordered
  have opens := recalls.opens
  rw [recentGroups]
  revert closes ordered opens
  generalize miniGops done = groups at trails
  intro closes ordered opens
  cases trails with
  | @anchor group rest top same leaves =>
      obtain ⟨upTo, plain⟩ := closes group (List.mem_cons_self ..)
      have alone := opens group rest rfl
      rw [leaves]
      cases rest with
      | nil =>
          have idr : previous.type = .idr := same ▸ alone.mp rfl
          simp [maxListReferences, idr, plain, same]
      | cons earlier others =>
          have notIdr : previous.type ≠ .idr := fun idr => by cases alone.mpr (same.symm ▸ idr)
          have before := (List.pairwise_cons.mp ordered).1 earlier (List.mem_cons_self ..)
          have upToEarlier := (closes earlier (by simp)).1
          rw [same] at upTo
          constructor
          · intro kept
            have both := kept earlier (by simp [maxListReferences])
            rw [List.mem_singleton] at both
            omega
          · rintro ⟨idr | deep, _⟩
            · exact absurd idr notIdr
            · exact absurd top (Nat.ne_of_gt deep)
  | @inner group earlier rest deep leaves =>
      obtain ⟨upTo, plain⟩ := closes group (List.mem_cons_self ..)
      obtain ⟨upToEarlier, plainEarlier⟩ := closes earlier (by simp)
      have before := (List.pairwise_cons.mp ordered).1 earlier (List.mem_cons_self ..)
      simp only [maxListReferences, List.take_succ_cons, List.take_zero, List.mem_cons,
        List.not_mem_nil, or_false, forall_eq_or_imp, forall_eq, leaves]
      constructor
      · rintro ⟨_, kept⟩
        split at kept
        next empty =>
          refine ⟨Or.inr deep, empty, plainEarlier.mpr ?_⟩
          omega
        next => omega
      · rintro ⟨_, empty, emptyEarlier⟩
        rw [if_pos empty]
        exact ⟨Or.inr (plain.mp empty), Or.inl (plainEarlier.mp emptyEarlier)⟩

theorem Recalls.finds_lead (recalls : Recalls done cursor) (trails : Trails previous (miniGops done))
    {before : List Outline} (split : done = before ++ [previous])
    (multi : cursor.gop.multiReference = true) :
    (∀ name ∈ (cursor.lead skipped forced).past ++ (cursor.lead skipped forced).future,
      name ∈ previous.leaves) ↔ Finds before previous (cursor.lead skipped forced) := by
  have top := cursor.depth_lead skipped forced
  by_cases key : (cursor.lead skipped forced).IsKey
  · refine ⟨fun _ => .key key, fun _ name member => ?_⟩
    have nothing : (cursor.lead skipped forced).past = [] := if_pos key
    rw [nothing] at member
    cases member
  · have past : (cursor.lead skipped forced).past =
        (recentGroups done).map fun group => group.closer.displayOrder := by
      rw [← recalls.targets multi (Nat.le_add_right _ skipped)]
      exact if_neg key
    have future : (cursor.lead skipped forced).future = [] := rfl
    rw [past, future, List.append_nil, List.forall_mem_map, recalls.leaves_closers trails, split]
    constructor
    · exact fun both => .anchor top both.1 both.2
    · rintro (isKey | ⟨_, within⟩ | ⟨_, deep⟩ | ⟨_, follows, plain⟩)
      · exact absurd isKey key
      · exact absurd top (Nat.ne_of_gt within)
      · exact absurd top (Nat.ne_of_gt deep)
      · exact ⟨follows, plain⟩

theorem Recalls.start_mem (recalls : Recalls done cursor) {group : MiniGop} {rest : List MiniGop}
    (groups : miniGops done = group :: rest) :
    group.anchor.displayOrder ∈ (recentGroups done).map (fun group => group.closer.displayOrder) ↔
      group.inner = [] := by
  obtain ⟨upTo, plain⟩ := recalls.closes group (by rw [groups]; exact List.mem_cons_self ..)
  rw [plain, recentGroups, groups]
  constructor
  · intro member
    obtain ⟨other, isRecent, same⟩ := List.mem_map.mp member
    rcases List.mem_cons.mp (List.mem_of_mem_take isRecent) with rfl | isEarlier
    · exact same
    · have ordered := recalls.ordered
      rw [groups] at ordered
      have before := (List.pairwise_cons.mp ordered).1 other isEarlier
      have upToOther := (recalls.closes other
        (by rw [groups]; exact List.mem_cons_of_mem _ isEarlier)).1
      omega
  · intro same
    exact List.mem_map.mpr ⟨group, List.mem_cons_self .., same⟩

theorem Recalls.leaves_lead (recalls : Recalls done cursor)
    (alone : (cursor.lead skipped forced).IsIdr → skipped = 0)
    (multi : cursor.gop.multiReference = true) (waits : skipped ≠ 0) (name : Nat) :
    name ∈ (cursor.lead skipped forced).leaves ↔
      name ∈ (recentGroups done).map (fun group => group.closer.displayOrder) ∨
        name = cursor.next + skipped := by
  have dpb : (cursor.lead skipped forced).dpb =
      (recentGroups done).map fun group => group.closer.displayOrder := by
    rw [← recalls.targets multi (Nat.le_add_right _ skipped)]
    refine if_neg ?_
    rintro (idr | nothing)
    · exact waits (alone idr)
    · exact waits (List.range'_eq_nil_iff.mp nothing)
  rw [Outline.leaves, dpb, List.mem_append]
  exact or_congr_right List.mem_singleton

theorem Recalls.finds_first (recalls : Recalls done cursor)
    (alone : (cursor.lead skipped forced).IsIdr → skipped = 0)
    (opens : cursor.anchor = none → skipped = 0) (multi : cursor.gop.multiReference = true)
    (listed : (cursor.turn skipped forced)[1]? = some request) :
    (∀ name ∈ request.past ++ request.future, name ∈ (cursor.lead skipped forced).leaves) ↔
      Finds done (cursor.lead skipped forced) request := by
  have top := cursor.depth_lead skipped forced
  have length := (List.getElem?_eq_some_iff.mp listed).1
  rw [length_turn opens] at length
  have waits : skipped ≠ 0 := by omega
  obtain ⟨group, rest, groups, marksEq⟩ := recalls.marks_turn opens waits (cursor.next + skipped)
  have nonempty : List.range' cursor.next skipped ≠ [] := by
    rw [Ne, List.range'_eq_nil_iff]
    exact waits
  obtain ⟨mark, marks, chartEq, pastEq, futureEq⟩ := head_chart (cursor.gop.maxBDepth - 1) 1
    group.anchor.displayOrder (cursor.next + skipped) [] nonempty
  have deep := marks_deep cursor (List.range' cursor.next skipped) (cursor.next + skipped) mark
    (by rw [marksEq, chartEq]; exact List.mem_cons_self ..)
  rw [Cursor.turn, Cursor.group, marksEq, chartEq] at listed
  cases listed
  have leaves := recalls.leaves_lead alone multi waits
  have past : mark.outline.past = [group.anchor.displayOrder] :=
    congrArg (fun name => [name]) pastEq
  have future : mark.outline.future = [cursor.next + skipped] :=
    congrArg (fun name => [name]) futureEq
  have early := recalls.inside group (by rw [groups]; exact List.mem_cons_self ..)
  have kept := recalls.start_mem groups
  rw [past, future]
  constructor
  · intro found
    refine .opening top deep ?_
    rw [groups, List.take_succ_cons, List.take_zero, List.forall_mem_singleton, ← kept]
    refine ((leaves _).mp (found _ (List.mem_cons_self ..))).resolve_right ?_
    omega
  · rintro (isKey | ⟨within, _⟩ | ⟨_, _, plain⟩ | ⟨isTop, _⟩)
    · cases isKey
    · exact absurd top (Nat.ne_of_gt within)
    · have empty := plain group (by rw [groups]; exact List.mem_cons_self ..)
      intro name member
      rw [leaves]
      rcases List.mem_cons.mp member with rfl | member
      · exact Or.inl (kept.mpr empty)
      · exact Or.inr (List.mem_singleton.mp member)
    · exact absurd isTop (Nat.ne_of_gt deep)

theorem finds_within (listed : (cursor.turn skipped forced)[index + 1]? = some previous)
    (next : (cursor.turn skipped forced)[index + 2]? = some request) :
    ∀ name ∈ request.past ++ request.future, name ∈ previous.leaves := by
  rw [turn, group, List.getElem?_cons_succ] at listed next
  intro name member
  have decodes : Decodes Outline.needs Outline.leaves
      (cursor.anchor.toList ++ [cursor.next + skipped])
      ((cursor.marks (List.range' cursor.next skipped) (cursor.next + skipped)).map Mark.outline) := by
    apply decodes_outlines
    unfold marks groupMarks
    cases cursor.anchor with
    | none => trivial
    | some start => exact decodes_chart _ _ _ _ _ _ (by simp)
  exact decodes.neighbours listed next name (List.mem_append_left _ member)

theorem Stage.finds (stage : Stage gop flags outlines done cursor left skipped forced)
    (multi : gop.multiReference = true) (upTo : done.length ≤ index + 1)
    (first : outlines[index]? = some previous)
    (second : (cursor.turn skipped forced)[index + 1 - done.length]? = some request) :
    (∀ name ∈ request.past ++ request.future, name ∈ previous.leaves) ↔
      Finds (outlines.take index) previous request := by
  have recalls := (stage.reaches.recalls stage.first).1
  have several : cursor.gop.multiReference = true := by
    rw [stage.aligned.same.multiReference]
    exact multi
  obtain ⟨more, split, _⟩ := stage.split
  by_cases through : done.length = index + 1
  · -- the anchor of the turn, after the last picture of the turn before
    rw [through, Nat.sub_self] at second
    cases second
    have begun : done ≠ [] := List.length_pos_iff.mp (by omega)
    obtain ⟨last, final, trails⟩ := stage.reaches.trails stage.first begun
    obtain ⟨before, doneEq⟩ := List.getLast?_eq_some_iff.mp final
    have length : before.length = index := by
      rw [doneEq, List.length_append, List.length_singleton] at through
      omega
    rw [split, doneEq, List.append_assoc, List.getElem?_append_right (by omega), length, Nat.sub_self]
      at first
    cases first
    rw [split, doneEq, List.append_assoc, List.take_left' length]
    exact recalls.finds_lead trails doneEq several
  · obtain ⟨place, rfl⟩ : ∃ place, index = done.length + place := ⟨index - done.length, by omega⟩
    rw [Nat.add_assoc, Nat.add_sub_cancel_left] at second
    have inside := (List.getElem?_eq_some_iff.mp second).1
    have here := stage.listed first (by omega)
    cases place with
    | zero =>
        cases here
        rw [split, Nat.add_zero, List.take_left]
        exact recalls.finds_first stage.closes.eq_zero_of_idr stage.opens several second
    | succ place =>
        refine ⟨fun _ => ?_, fun _ => finds_within here second⟩
        rcases turn_cases here with ⟨none, _⟩ | ⟨_, _, deep, _⟩
        · cases none
        · rcases turn_cases second with ⟨none, _⟩ | ⟨_, _, within, _⟩
          · cases none
          · exact .within deep within

end Cursor

namespace Encoder

open Recorded

variable {B : Backend} {start : Recorded B} {encoder : Encoder B.recorded}

/-- With several past references a request finds what it refers to in what the request before it
leaves in four cases, and in no other. -/
theorem Reachable.requests_find (nothing : start.calls = [])
    (reachable : Reachable (B := B.recorded) start SameCalls encoder)
    (multi : 1 < (B.capabilities start.inner).maxPastRefs) {index : Nat}
    {previous request : Request B.Image} (first : encoder.backend.requests[index]? = some previous)
    (second : encoder.backend.requests[index + 1]? = some request) :
    (∀ reference ∈ request.past ++ request.future,
      reference.info.displayOrder ∈ previous.dpb.map (fun kept => kept.info.displayOrder) ∨
        previous.picture.isReference = true ∧
          reference.info.displayOrder = previous.picture.displayOrder) ↔
    Outline.Finds ((encoder.backend.requests.take index).map Request.outline) previous.outline
      request.outline := by
  obtain ⟨config, gop, _, frames, _, made, _, _, foretold⟩ := reachable.foretold nothing
  obtain ⟨done, cursor, left, skipped, forced, stage, upTo, listed⟩ := foretold.turn second
  have several : gop.multiReference = true := by
    rw [Gop.multiReference_of_ofConfig? made]
    exact decide_eq_true multi
  have before : (encoder.backend.requests.map Request.outline)[index]? = some previous.outline := by
    rw [List.getElem?_map, first, Option.map_some]
  rw [List.map_take, ← stage.finds several upTo before listed]
  have leaves : ∀ name, name ∈ previous.outline.leaves ↔
      name ∈ previous.dpb.map (fun kept => kept.info.displayOrder) ∨
        previous.picture.isReference = true ∧ name = previous.picture.displayOrder := by
    intro name
    rw [Outline.leaves, List.mem_append]
    refine or_congr_right ?_
    have isReference : previous.outline.isReference = previous.picture.isReference := rfl
    rw [isReference]
    cases previous.picture.isReference with
    | true => simp [Request.outline]
    | false => simp
  have lists : request.outline.past ++ request.outline.future =
      (request.past ++ request.future).map fun reference => reference.info.displayOrder :=
    List.map_append.symm
  rw [lists, List.forall_mem_map]
  exact forall₂_congr fun reference _ => (leaves _).symm

def straight : Encoder Backend.simulated.recorded :=
  (film doubleDevice { maxBFrames := 0 } .blocking (List.replicate 3 (.encode {}))).2

theorem straight_reachable :
    Reachable (B := Backend.simulated.recorded) { inner := doubleDevice } SameCalls straight :=
  (Calls.none.performAll _).reachable (.created { maxBFrames := 0 } .blocking rfl)

theorem requests_find_straight :
    ∃ previous request, straight.backend.requests[0]? = some previous ∧
      straight.backend.requests[1]? = some request ∧
      ((∀ reference ∈ request.past ++ request.future,
        reference.info.displayOrder ∈ previous.dpb.map (fun kept => kept.info.displayOrder) ∨
          previous.picture.isReference = true ∧
            reference.info.displayOrder = previous.picture.displayOrder) ↔
      Outline.Finds ((straight.backend.requests.take 0).map Request.outline) previous.outline
        request.outline) := by
  have listed : ∀ index : Nat, straight.backend.requests[index]?.isSome = true →
      ∃ request, straight.backend.requests[index]? = some request :=
    fun _ => Option.isSome_iff_exists.mp
  obtain ⟨previous, first⟩ := listed 0 (by decide +kernel)
  obtain ⟨request, second⟩ := listed 1 (by decide +kernel)
  exact ⟨previous, request, first, second,
    Reachable.requests_find rfl straight_reachable (by decide) first second⟩

theorem misses_second_past :
    Reachable (B := Backend.simulated.recorded) { inner := doubleDevice } SameCalls straight ∧
      straight.failed = false ∧ straight.failedPictures = 0 ∧
      straight.backend.requests.map (fun request => (request.picture.displayOrder,
        request.past.map (fun reference => reference.info.displayOrder),
        request.dpb.map fun reference => reference.info.displayOrder)) =
          [(0, [], []), (1, [0], []), (2, [1, 0], [])] ∧
      ∃ previous request, straight.backend.requests[1]? = some previous ∧
        straight.backend.requests[2]? = some request ∧
        ¬∀ reference ∈ request.past ++ request.future,
          reference.info.displayOrder ∈ previous.dpb.map (fun kept => kept.info.displayOrder) ∨
            previous.picture.isReference = true ∧
              reference.info.displayOrder = previous.picture.displayOrder := by
  refine ⟨straight_reachable, by decide +kernel, by decide +kernel, by decide +kernel, ?_⟩
  have kept : (straight.backend.requests[1]?.map fun previous =>
      previous.dpb.map fun kept => kept.info.displayOrder) = some [] := by decide +kernel
  have shown : (straight.backend.requests[1]?.map fun previous =>
      previous.picture.displayOrder) = some 1 := by decide +kernel
  have past : (straight.backend.requests[2]?.map fun request =>
      request.past.map fun reference => reference.info.displayOrder) = some [1, 0] := by
    decide +kernel
  obtain ⟨previous, first, dpb⟩ := Option.map_eq_some_iff.mp kept
  obtain ⟨request, second, orders⟩ := Option.map_eq_some_iff.mp past
  rw [first, Option.map_some, Option.some.injEq] at shown
  refine ⟨previous, request, first, second, fun found => ?_⟩
  obtain ⟨reference, member, order⟩ : ∃ reference ∈ request.past, reference.info.displayOrder = 0 :=
    List.mem_map.mp (by rw [orders]; simp)
  have missing := found reference (List.mem_append_left _ member)
  rw [dpb, order, shown] at missing
  simp at missing

end Encoder

end VideoSchedule

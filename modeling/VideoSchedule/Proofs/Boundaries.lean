import VideoSchedule.Proofs.MultiReference

/-!
Boundaries. An IDR picture divides the order of issue and the order of display at the same place, and
nothing behind it refers to what is before it. Where groups of pictures end closed, B-pictures stay
within their own one, with everything they refer to.
-/

namespace VideoSchedule

open Hierarchy

theorem Refers.offered {α β : Type} {needs offers : β → List α} {known : List α} {items : List β}
    {item : β} {name : α} (refers : Refers needs offers known items) (member : item ∈ items)
    (needed : name ∈ needs item) : name ∈ known ∨ ∃ other ∈ items, name ∈ offers other := by
  obtain ⟨index, listed⟩ := List.mem_iff_getElem?.mp member
  refine (refers.earlier listed needed).imp id ?_
  rintro ⟨_, other, _, found, offered⟩
  exact ⟨other, List.mem_of_getElem? found, offered⟩

namespace Outline

theorem eq_of_mem_offers {outline : Outline} {name : Nat} (offered : name ∈ outline.offers) :
    outline.isReference = true ∧ name = outline.displayOrder := by
  unfold offers at offered
  split at offered
  next isReference => exact ⟨isReference, List.mem_singleton.mp offered⟩
  next => cases offered

/-- Two places in display order between which no group of pictures ends: the second one is not before
the key picture that the first one follows upon, and before any later key picture. -/
structure SameGop (outlines : List Outline) (order other : Nat) : Prop where
  begun : ∃ key, Latest IsKey outlines (order + 1) key ∧ key.displayOrder ≤ other
  goesOn : ∀ key ∈ outlines, key.IsKey → order < key.displayOrder → other < key.displayOrder

/-- A picture between two top layer pictures of its own group of pictures, which also has everything it
refers to. -/
structure Enclosed (outlines : List Outline) (outline : Outline) : Prop where
  between : ∃ first ∈ outlines, ∃ second ∈ outlines, first.depth = 0 ∧ second.depth = 0 ∧
    first.displayOrder < outline.displayOrder ∧ outline.displayOrder < second.displayOrder ∧
    SameGop outlines outline.displayOrder first.displayOrder ∧
    SameGop outlines outline.displayOrder second.displayOrder
  within : ∀ name ∈ outline.needs, SameGop outlines outline.displayOrder name

end Outline

namespace Cursor

open Outline

variable {gop : Gop} {flags left : List Bool} {outlines done : List Outline} {cursor : Cursor}
  {skipped bound : Nat} {forced : Bool} {outline : Outline}

/-! IDR pictures. -/

theorem turn_zero (cursor : Cursor) (forced : Bool) :
    cursor.turn 0 forced = [cursor.lead 0 forced] := by
  rw [turn, group, List.range'_zero, marks, groupMarks_nil]
  rfl

theorem lists_idr (idr : (cursor.lead skipped forced).IsIdr) :
    (cursor.lead skipped forced).past = [] ∧ (cursor.lead skipped forced).future = [] ∧
      (cursor.lead skipped forced).dpb = [] :=
  ⟨if_pos idr.isKey, rfl, if_pos (Or.inl idr)⟩

theorem knows_idr (idr : (cursor.lead 0 forced).IsIdr) :
    (cursor.after 0 forced).Knows [cursor.next] := by
  have nothing : PastPictures.room (lastType (cursor.lead 0 forced).type ([] : List (Mark Nat)))
      cursor.recent = [] := by
    rw [lastType, List.any_nil]
    exact if_pos idr
  have recent : (cursor.after 0 forced).recent = [cursor.next] := by
    rw [after, pass, List.range'_zero, marks, groupMarks_nil]
    exact congrArg (· ++ [cursor.next]) nothing
  constructor
  · intro start same
    cases same
    exact List.mem_singleton_self _
  · rw [recent]
    exact fun _ member => member

theorem Knows.needs_script {known : List Nat} (knows : cursor.Knows known)
    (low : ∀ name ∈ known, bound ≤ name) (upTo : bound ≤ cursor.next)
    (member : outline ∈ script flags cursor []) : ∀ name ∈ outline.needs, bound ≤ name := by
  intro name needed
  rcases (knows.refers_script [] flags).offered member needed with old | ⟨other, among, offered⟩
  · exact low name old
  · rw [(eq_of_mem_offers offered).2]
    exact Nat.le_trans upTo (script_later among)

theorem Closes.behind_idr (closes : cursor.Closes 0 left skipped forced)
    (idr : (cursor.lead skipped forced).IsIdr) : ∃ later,
      Cursor.script left cursor [] = cursor.lead skipped forced :: later ∧
      ∀ other ∈ later, (cursor.lead skipped forced).displayOrder < other.displayOrder ∧
        ∀ name ∈ other.needs, (cursor.lead skipped forced).displayOrder ≤ name := by
  have none := closes.eq_zero_of_idr idr
  subst none
  refine ⟨Cursor.script (left.drop 1) (cursor.after 0 forced) [], ?_, fun other member => ⟨?_, ?_⟩⟩
  · rw [closes.script, turn_zero]
    rfl
  · exact script_later member
  · refine (knows_idr idr).needs_script (fun name known => ?_) (Nat.le_succ _) member
    exact Nat.le_of_eq (List.mem_singleton.mp known).symm

/-! Closed groups of pictures. -/

theorem exists_mark (member : outline ∈ cursor.turn skipped forced) (deep : 0 < outline.depth) :
    ∃ mark ∈ cursor.marks (List.range' cursor.next skipped) (cursor.next + skipped),
      mark.outline = outline := by
  rcases List.mem_cons.mp member with rfl | inside
  · exact absurd deep (Nat.lt_irrefl 0)
  · exact List.mem_map.mp inside

theorem Keyed.since (keyed : Keyed done cursor) : 0 < cursor.gop.picturesSinceKey := by
  obtain ⟨key, latest, order⟩ := keyed.key
  have before := latest.earlier
  omega

section

variable (stage : Stage gop flags outlines done cursor left skipped forced)
include stage

theorem Stage.divides (idr : (cursor.lead skipped forced).IsIdr) {before after : List Outline}
    (split : outlines = before ++ cursor.lead skipped forced :: after)
    (here : before.length = done.length) :
    (∀ other ∈ before, other.displayOrder < (cursor.lead skipped forced).displayOrder) ∧
    ∀ other ∈ after, (cursor.lead skipped forced).displayOrder < other.displayOrder ∧
      ∀ name ∈ other.needs, (cursor.lead skipped forced).displayOrder ≤ name := by
  obtain ⟨later, script, behind⟩ := stage.closes.behind_idr idr
  have begins := stage.begins
  rw [stage.reaches.script, script, split] at begins
  obtain ⟨rest, told⟩ := begins
  rw [List.append_assoc] at told
  obtain ⟨rfl, second⟩ := List.append_inj told here
  obtain ⟨_, rfl⟩ := List.cons.inj second
  constructor
  · intro other member
    exact Nat.lt_of_lt_of_le (stage.reaches.inside other member) (Nat.le_add_right _ skipped)
  · intro other member
    exact behind other (List.mem_append_left _ member)

theorem Stage.charted (here : outline ∈ cursor.turn skipped forced) (deep : 0 < outline.depth) :
    ∃ first ∈ done, ∃ mark, outline = mark.outline ∧ first.depth = 0 ∧
      first.displayOrder + 1 = cursor.next ∧
      mark ∈ chart (gop.maxBDepth - 1) 1 first.displayOrder (List.range' cursor.next skipped)
        (cursor.next + skipped) [] := by
  obtain ⟨mark, inMarks, rfl⟩ := exists_mark here deep
  have aligned := stage.aligned
  unfold marks groupMarks at inMarks
  rcases aligned.anchored with ⟨anchor, _⟩ | ⟨first, member, top, order, anchor⟩
  · rw [anchor] at inMarks
    cases inMarks
  · rw [anchor, aligned.same.maxBDepth] at inMarks
    exact ⟨first, member, mark, rfl, top, order.trans aligned.next.symm, inMarks⟩

theorem Stage.between (here : outline ∈ cursor.turn skipped forced) (deep : 0 < outline.depth) :
    ∃ first ∈ done, first.depth = 0 ∧ first.displayOrder + 1 = cursor.next ∧
      ∀ name ∈ outline.needs, first.displayOrder ≤ name ∧ name ≤ cursor.next + skipped := by
  obtain ⟨first, member, mark, rfl, top, next, inChart⟩ := stage.charted here deep
  refine ⟨first, member, top, next, fun name needed => ?_⟩
  have inNeeds : name ∈ mark.needs := by
    simp only [needs, Mark.outline, Mark.needs, List.mem_append, List.mem_cons,
      List.not_mem_nil, or_false] at needed ⊢
    tauto
  have known := needs_chart _ _ _ _ _ _ mark inChart name inNeeds
  simp only [List.mem_cons, List.mem_range'_1, List.not_mem_nil, or_false] at known
  omega

theorem Stage.lead_issued (member : outline ∈ outlines)
    (here : outline ∈ cursor.turn skipped forced) : cursor.lead skipped forced ∈ outlines := by
  obtain ⟨more, split, _⟩ := stage.split
  have issued : done.length < outlines.length := by
    apply Nat.lt_of_not_le
    intro short
    rw [split, List.length_append] at short
    rw [split, List.length_eq_zero_iff.mp (by omega : more.length = 0), List.append_nil] at member
    have before := stage.reaches.inside outline member
    have after := (turn_upTo here).1
    omega
  have first : (cursor.turn skipped forced)[0]? = some outlines[done.length] :=
    stage.listed (List.getElem?_eq_getElem issued) (by rw [length_turn stage.opens]; omega)
  have same : cursor.lead skipped forced = outlines[done.length] := Option.some.inj first
  rw [same]
  exact List.getElem_mem issued

/-- No closed group of pictures ends within a turn that has B-pictures. -/
theorem Stage.sameGop (sized : 0 < gop.size) (closed : gop.closed = true) {order other : Nat}
    (after : cursor.next ≤ order) (before : order < cursor.next + skipped)
    (low : cursor.next ≤ other + 1) (high : other ≤ cursor.next + skipped) :
    SameGop outlines order other := by
  have begun : done ≠ [] := fun nothing => by
    have none := (stage.forced_first nothing).1
    omega
  have since := ((stage.reaches.keyed stage.first sized).resolve_left begun).since
  obtain ⟨_, key, _, latest, _, keyOrder, _⟩ :=
    stage.latest sized begun (Nat.le_succ_of_le after) (Or.inl before)
  refine ⟨⟨key, latest, by omega⟩, fun later member isKey behind => ?_⟩
  obtain ⟨more, split, ahead⟩ := stage.split
  rw [split] at member
  rcases List.mem_append.mp member with inDone | inMore
  · have inside := stage.reaches.inside later inDone
    omega
  · rcases ahead later inMore with here | beyond
    · -- the anchor of the turn is no key picture, for then nothing would wait before it
      rw [eq_lead_of_isKey here isKey] at isKey
      have none := stage.eq_zero_of_closed closed isKey
      omega
    · omega

theorem Stage.enclosed (sized : 0 < gop.size) (closed : gop.closed = true)
    (member : outline ∈ outlines) (here : outline ∈ cursor.turn skipped forced)
    (deep : 0 < outline.depth) : Enclosed outlines outline := by
  obtain ⟨first, inDone, top, next, needs⟩ := stage.between here deep
  rcases mem_turn here with rfl | ⟨_, _, after, before⟩
  · exact absurd deep (Nat.lt_irrefl 0)
  have inside := stage.reaches.inside first inDone
  have same : ∀ {name}, first.displayOrder ≤ name → name ≤ cursor.next + skipped →
      SameGop outlines outline.displayOrder name :=
    fun low high => stage.sameGop sized closed after before (by omega) high
  have upTo : first.displayOrder ≤ cursor.next + skipped := by omega
  constructor
  · obtain ⟨more, split, _⟩ := stage.split
    have issued : first ∈ outlines := by
      rw [split]
      exact List.mem_append_left _ inDone
    exact ⟨first, issued, cursor.lead skipped forced, stage.lead_issued member here, top, rfl,
      Nat.lt_of_lt_of_le inside after, before, same (Nat.le_refl _) upTo,
      same upTo (Nat.le_refl _)⟩
  · intro name needed
    obtain ⟨low, high⟩ := needs name needed
    exact same low high

end

end Cursor

namespace Encoder

open Recorded Outline

variable {B : Backend} {start : Recorded B} {config : Config} {mode : BlockingMode}
  {opening encoder : Encoder B.recorded} {trail : List (Call × Except EncodeError Answer)}

theorem mem_needs {ι : Type} {request : Request ι} {reference : ReferencePicture ι}
    (member : reference ∈ request.past ++ request.future ++ request.dpb) :
    reference.info.displayOrder ∈ request.outline.needs := by
  have named := List.mem_map_of_mem (f := fun kept => kept.info.displayOrder) member
  rwa [List.map_append, List.map_append] at named

/-- An IDR picture stands alone: what is issued before it is displayed before it, and what is issued
after it is displayed after it and refers to nothing before it. -/
theorem Reachable.idr_divides (nothing : start.calls = [])
    (reachable : Reachable (B := B.recorded) start SameCalls encoder)
    {before after : List (Request B.Image)} {request : Request B.Image}
    (split : encoder.backend.requests = before ++ request :: after)
    (idr : request.picture.type = .idr) :
    (request.past = [] ∧ request.future = [] ∧ request.dpb = []) ∧
    (∀ other ∈ before, other.picture.displayOrder < request.picture.displayOrder) ∧
    ∀ other ∈ after, request.picture.displayOrder < other.picture.displayOrder ∧
      ∀ reference ∈ other.past ++ other.future ++ other.dpb,
        request.picture.displayOrder ≤ reference.info.displayOrder := by
  obtain ⟨config, gop, _, frames, _, _, _, _, foretold⟩ := reachable.foretold nothing
  have asked : encoder.backend.requests[before.length]? = some request := by
    rw [split, List.getElem?_append_right (Nat.le_refl _), Nat.sub_self]
    rfl
  obtain ⟨done, cursor, left, skipped, forced, stage, within, listed⟩ := foretold.turn asked
  rcases Cursor.turn_cases listed with ⟨here, lead⟩ | ⟨_, type, _⟩
  · have isIdr : (cursor.lead skipped forced).IsIdr := by
      rw [← lead]
      exact idr
    have shown : encoder.backend.requests.map Request.outline = before.map Request.outline ++
        cursor.lead skipped forced :: after.map Request.outline := by
      rw [split, List.map_append, List.map_cons, lead]
    obtain ⟨earlier, later⟩ := stage.divides isIdr shown (by rw [List.length_map]; omega)
    obtain ⟨past, future, dpb⟩ := Cursor.lists_idr isIdr
    rw [← lead] at past future dpb earlier later
    refine ⟨⟨List.map_eq_nil_iff.mp past, List.map_eq_nil_iff.mp future,
      List.map_eq_nil_iff.mp dpb⟩, fun other member => ?_, fun other member => ?_⟩
    · exact earlier other.outline (List.mem_map_of_mem member)
    · obtain ⟨behind, needs⟩ := later other.outline (List.mem_map_of_mem member)
      exact ⟨behind, fun reference named => needs _ (mem_needs named)⟩
  · cases type.symm.trans idr

/-- Nine frames on a backend with two past references, and a keyframe asked for after the second
group. -/
def divided : Encoder Backend.simulated.recorded :=
  (film doubleDevice { bDepth := 2 } .blocking
    ((List.range 9).map fun index => .encode { forceKey := index == 5 })).2

theorem idr_divides_forced :
    divided.backend.requests.map (fun request => request.picture.displayOrder) =
      [0, 3, 1, 2, 4, 5, 8, 6, 7] ∧
    ∃ request, divided.backend.requests[5]? = some request ∧
      request.picture.type = .idr ∧
      (request.past = [] ∧ request.future = [] ∧ request.dpb = []) ∧
      (∀ other ∈ divided.backend.requests.take 5,
        other.picture.displayOrder < request.picture.displayOrder) ∧
      ∀ other ∈ divided.backend.requests.drop 6,
        request.picture.displayOrder < other.picture.displayOrder ∧
        ∀ reference ∈ other.past ++ other.future ++ other.dpb,
          request.picture.displayOrder ≤ reference.info.displayOrder := by
  have reachable : Reachable (B := Backend.simulated.recorded) { inner := doubleDevice } SameCalls
      divided := (Calls.none.performAll _).reachable (.created { bDepth := 2 } .blocking rfl)
  have asked : (divided.backend.requests[5]?.map fun request => request.picture.type) =
      some .idr := by decide +kernel
  obtain ⟨request, asked, idr⟩ := Option.map_eq_some_iff.mp asked
  obtain ⟨inside, same⟩ := List.getElem?_eq_some_iff.mp asked
  have split : divided.backend.requests =
      divided.backend.requests.take 5 ++ request :: divided.backend.requests.drop 6 := by
    rw [← same, ← List.drop_eq_getElem_cons inside, List.take_append_drop]
  exact ⟨by decide +kernel, request, asked, idr, Reachable.idr_divides rfl reachable split idr⟩

/-- Where groups of pictures end closed, a B-picture has nothing to do with any other than its own. -/
theorem Calls.closed_groups (nothing : start.calls = [])
    (created : ((create (B := B.recorded) start config mode : Action Unit (Encoder B.recorded))
      ()).result = .ok opening)
    (calls : Calls SameCalls opening trail encoder) {gop : Gop}
    (made : Gop.ofConfig? config (B.capabilities start.inner) = some gop)
    (closed : gop.closed = true) {request : Request B.Image}
    (asked : request ∈ encoder.backend.requests) (deep : 0 < request.picture.depth) :
    Enclosed (encoder.backend.requests.map Request.outline) request.outline := by
  obtain ⟨frames, foretold⟩ := calls.foretold nothing created
  obtain ⟨_, other, madeToo, rfl⟩ := create_eq_ok created
  cases made.symm.trans madeToo
  obtain ⟨sized, _⟩ := Gop.fresh_of_ofConfig? made
  have member := List.mem_map_of_mem (f := Request.outline) asked
  obtain ⟨_, _, _, _, _, _, _, _, stage, here⟩ := foretold.stage member
  exact stage.enclosed sized closed member here deep

/-- Twelve frames in closed groups of five, every other one with an IDR picture. -/
def enclosed : List (Call × Except EncodeError Answer) × Encoder Backend.simulated.recorded :=
  film (Device.create .immediate none) { gopSize := 5, idrInterval := 1, closedGop := true } .blocking
    (List.replicate 12 (.encode {}))

theorem closed_groups_enclosed :
    ∃ request, enclosed.2.backend.requests[7]? = some request ∧
      request.picture.displayOrder = 6 ∧
      Enclosed (enclosed.2.backend.requests.map Request.outline) request.outline := by
  have created : ((create (B := Backend.simulated.recorded) { inner := Device.create .immediate none }
      { gopSize := 5, idrInterval := 1, closedGop := true } .blocking :
        Action Unit (Encoder Backend.simulated.recorded)) ()).result =
      .ok (onDevice (Device.create .immediate none)
        { gopSize := 5, idrInterval := 1, closedGop := true } .blocking) := rfl
  have asked : (enclosed.2.backend.requests[7]?.map fun request =>
      (request.picture.displayOrder, request.picture.depth)) = some (6, 1) := by decide +kernel
  obtain ⟨request, asked, same⟩ := Option.map_eq_some_iff.mp asked
  obtain ⟨order, depth⟩ := Prod.mk.inj same
  refine ⟨request, asked, order, ?_⟩
  exact Calls.closed_groups rfl created (calls_performAll _ _) rfl rfl
    (List.mem_of_getElem? asked) (by rw [depth]; exact Nat.one_pos)

end Encoder

end VideoSchedule

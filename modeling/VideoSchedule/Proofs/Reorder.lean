import VideoSchedule.Proofs.SessionChronicle

/-!
How far encode order departs from display order. No picture is issued before as many frames came in
as were issued: a picture at some place of a script shows a frame that is at most as many places
earlier as the picture has layers above it.
-/

namespace VideoSchedule

open Hierarchy Scheduler

theorem Gop.layered_of_ofConfig? {config : Config} {caps : Capabilities} {gop : Gop}
    (valid : config.Valid) (made : ofConfig? config caps = some gop) (reorders : 0 < gop.bPerGroup) :
    0 < gop.maxBDepth := by
  have depth := valid.bDepth_pos
  simp only [ofConfig?] at made
  split at made
  · cases made
    cases reorders
  split at made
  · cases made
  split at made
  · cases made
    dsimp only
    split <;> omega
  · cases made
    cases reorders

namespace Hierarchy

variable {α : Type} {levels depth : Nat} {past future : α} {between chain : List α}

structure Places (levels depth : Nat) (between : List α) (place : Nat) (mark : Mark α) : Prop where
  shows : ∃ shown, between[shown]? = some mark.picture ∧ place + depth ≤ shown + mark.depth
  shallow : mark.depth ≤ depth + levels

theorem length_chart (levels depth : Nat) (past : α) (between : List α) (future : α)
    (chain : List α) : (chart levels depth past between future chain).length = between.length := by
  rw [← (pictures_chart levels depth past between future chain).length_eq, List.length_map]

theorem places_chart (levels depth : Nat) (past : α) (between : List α) (future : α)
    (chain : List α) : ∀ place mark,
      (chart levels depth past between future chain)[place]? = some mark →
        Places levels depth between place mark := by
  refine (chart_induction (motive := fun levels depth _ between _ _ marks =>
    marks.length = between.length ∧ ∀ place mark, marks[place]? = some mark →
      Places levels depth between place mark) ?_ ?_ levels depth past between future chain).2
  · intro levels depth past between future chain
    refine ⟨by simp [level], ?_⟩
    intro place mark listed
    rw [level, List.getElem?_map, Option.map_eq_some_iff] at listed
    obtain ⟨picture, inside, rfl⟩ := listed
    exact ⟨⟨place, inside, Nat.le_refl _⟩, Nat.le_add_right _ _⟩
  · rintro levels depth past left picture right future chain leftMarks rightMarks
      ⟨leftLength, first⟩ ⟨rightLength, second⟩
    refine ⟨by simp [leftLength, rightLength]; omega, ?_⟩
    intro place mark listed
    cases place with
    | zero =>
        cases listed
        refine ⟨⟨left.length, by simp, ?_⟩, Nat.le_add_right _ _⟩
        dsimp only
        omega
    | succ place =>
        rw [List.getElem?_cons_succ] at listed
        by_cases inLeft : place < leftMarks.length
        · rw [List.getElem?_append_left inLeft] at listed
          obtain ⟨⟨shown, inside, near⟩, shallow⟩ := first place mark listed
          refine ⟨⟨shown, getElem?_append_of_eq_some inside, ?_⟩, ?_⟩ <;> omega
        · rw [List.getElem?_append_right (by omega)] at listed
          obtain ⟨⟨shown, inside, near⟩, shallow⟩ := second _ mark listed
          refine ⟨⟨left.length + (shown + 1), ?_, ?_⟩, ?_⟩
          · rw [List.getElem?_append_right (by omega), Nat.add_sub_cancel_left,
              List.getElem?_cons_succ, inside]
          · omega
          · omega

end Hierarchy

structure Outline.Timely (gop : Gop) (place : Nat) (outline : Outline) : Prop where
  late : place ≤ outline.displayOrder + outline.depth
  shallow : outline.depth ≤ gop.maxBDepth
  straight : gop.bPerGroup = 0 → outline.displayOrder = place

namespace Cursor

variable {cursor : Cursor} {base count place : Nat} {forced : Bool} {outline : Outline}

theorem length_group (cursor : Cursor) (waiting : List Nat) (order : Nat) (forced : Bool) :
    0 < (cursor.group waiting order forced).length ∧
      (cursor.group waiting order forced).length ≤ waiting.length + 1 := by
  rw [group, List.length_cons, List.length_map, marks]
  refine ⟨Nat.succ_pos _, Nat.succ_le_succ ?_⟩
  unfold groupMarks
  cases cursor.anchor with
  | none => exact Nat.zero_le _
  | some start => exact Nat.le_of_eq (length_chart ..)

theorem timely_group (layered : 0 < cursor.gop.bPerGroup → 0 < cursor.gop.maxBDepth)
    (few : count ≤ cursor.gop.bPerGroup)
    (listed : (cursor.group (List.range' base count) (base + count) forced)[place]? = some outline) :
    outline.Timely cursor.gop (base + place) := by
  cases place with
  | zero =>
      cases listed
      refine ⟨?_, Nat.zero_le _, fun none => ?_⟩ <;> dsimp only [top] <;> omega
  | succ place =>
      rw [group, List.getElem?_cons_succ, List.getElem?_map, Option.map_eq_some_iff] at listed
      obtain ⟨mark, listed, rfl⟩ := listed
      unfold marks groupMarks at listed
      cases start : cursor.anchor with
      | none => simp [start] at listed
      | some anchor =>
          simp only [start] at listed
          obtain ⟨⟨shown, inside, near⟩, shallow⟩ := places_chart _ _ _ _ _ _ place mark listed
          obtain ⟨within, shows⟩ := List.getElem?_eq_some_iff.mp inside
          rw [List.length_range'] at within
          rw [List.getElem_range', Nat.one_mul] at shows
          have deep := layered (by omega)
          refine ⟨?_, ?_, fun none => ?_⟩ <;> dsimp only [Mark.outline] <;> omega

/-- The picture at a place of a script shows a frame that came in at most as many places before as
there are layers above it; and the frame of that place if there are no B-pictures. -/
theorem timely_script {flags : List Bool}
    (layered : 0 < cursor.gop.bPerGroup → 0 < cursor.gop.maxBDepth)
    (few : count ≤ cursor.gop.bPerGroup) (next : cursor.next = base + count)
    (listed : (script flags cursor (List.range' base count))[place]? = some outline) :
    outline.Timely cursor.gop (base + place) := by
  induction flags generalizing cursor base count place with
  | nil =>
      cases count with
      | zero => simp [script] at listed
      | succ count =>
          rw [List.range'_concat, Nat.one_mul, script, List.getLast?_concat] at listed
          dsimp only at listed
          rw [List.dropLast_concat] at listed
          exact timely_group layered (by omega) listed
  | cons forced rest ih =>
      rw [script] at listed
      split at listed
      next stops =>
        rw [next] at listed
        have length := length_group cursor (List.range' base count) (base + count) forced
        rw [List.length_range'] at length
        by_cases inGroup :
            place < (cursor.group (List.range' base count) (base + count) forced).length
        · rw [List.getElem?_append_left inGroup] at listed
          exact timely_group layered few listed
        · rw [List.getElem?_append_right (by omega)] at listed
          have bPerGroup := nextTop_bPerGroup cursor.gop forced (List.range' base count).length
          have maxBDepth := nextTop_maxBDepth cursor.gop forced (List.range' base count).length
          have passed : (cursor.pass (List.range' base count) (base + count) forced).gop =
              (cursor.gop.nextTop forced (List.range' base count).length).2 := rfl
          have later := @ih (cursor.pass (List.range' base count) (base + count) forced)
            (base + count + 1) 0 _ (by rw [passed, bPerGroup, maxBDepth]; exact layered)
            (Nat.zero_le _) rfl listed
          obtain ⟨late, shallow, straight⟩ := later
          rw [passed, maxBDepth] at shallow
          rw [passed, bPerGroup] at straight
          exact ⟨by omega, shallow, fun none => by have same := straight none; omega⟩
      next continues =>
        rw [Stops, not_or, not_or, List.length_range'] at continues
        have room := continues.2.1
        have concat : List.range' base count ++ [cursor.next] = List.range' base (count + 1) := by
          rw [next, List.range'_concat, Nat.one_mul]
        rw [concat] at listed
        have further : ({ cursor with next := cursor.next + 1 } : Cursor).next =
            base + (count + 1) := by
          dsimp only
          omega
        exact @ih { cursor with next := cursor.next + 1 } base (count + 1) place layered
          (Nat.lt_of_le_of_ne few room) further listed

end Cursor

theorem Encoder.Begins.timely {B : Backend} {gop : Gop} {requests : List (Request B.Image)}
    (begins : Encoder.Begins { gop } requests) (layered : 0 < gop.bPerGroup → 0 < gop.maxBDepth)
    {place : Nat} {request : Request B.Image} (listed : requests[place]? = some request) :
    request.outline.Timely gop place := by
  obtain ⟨cues, rest, script⟩ := begins
  have outlined : (requests.map Request.outline ++ rest)[place]? = some request.outline := by
    refine getElem?_append_of_eq_some ?_
    rw [List.getElem?_map, listed, Option.map_some]
  rw [← script] at outlined
  have timely := @Cursor.timely_script { gop } 0 0 place request.outline cues layered
    (Nat.zero_le _) rfl outlined
  rwa [Nat.zero_add] at timely

end VideoSchedule

import Mathlib.Data.List.Infix
import VideoSchedule.Proofs.Forecast
import VideoSchedule.Proofs.ScriptTurns

/-!
The order within groups. Once an anchor was asked for, its B-pictures follow in the preorder of their
hierarchy, and nothing comes in between; so no picture is issued long before its place in display
order, nor long after it.
-/

namespace VideoSchedule

open Hierarchy

namespace Hierarchy

variable {α : Type}

/-- The hierarchy of a group: pictures that nothing refers to, or two groups on both sides of a
picture. -/
inductive Pyramid (α : Type) where
  | flat (pictures : List α)
  | split (left : Pyramid α) (picture : α) (right : Pyramid α)
deriving Repr

namespace Pyramid

def inorder : Pyramid α → List α
  | flat pictures => pictures
  | split left picture right => left.inorder ++ picture :: right.inorder

def preorder : Pyramid α → List α
  | flat pictures => pictures
  | split left picture right => picture :: (left.preorder ++ right.preorder)

def Halved : Pyramid α → Prop
  | flat _ => True
  | split left _ right =>
    (left.inorder.length ≤ right.inorder.length ∧
      right.inorder.length ≤ left.inorder.length + 1) ∧ left.Halved ∧ right.Halved

def marks (depth : Nat) (past future : α) (chain : List α) : Pyramid α → List (Mark α)
  | flat pictures => level depth past pictures future chain
  | split left picture right =>
    { picture, depth, isReference := true, past, future, chain } ::
      (left.marks (depth + 1) past picture (future :: chain) ++
        right.marks (depth + 1) picture future chain)

theorem pictures_marks (pyramid : Pyramid α) (depth : Nat) (past future : α) (chain : List α) :
    (pyramid.marks depth past future chain).map Mark.picture = pyramid.preorder := by
  induction pyramid generalizing depth past future chain with
  | flat pictures => exact pictures_level ..
  | split left picture right first second =>
      rw [marks, List.map_cons, List.map_append, first, second, preorder]

end Pyramid

theorem chart_pyramid (levels depth : Nat) (past : α) (between : List α) (future : α)
    (chain : List α) : ∃ pyramid : Pyramid α, pyramid.Halved ∧ pyramid.inorder = between ∧
      chart levels depth past between future chain = pyramid.marks depth past future chain := by
  induction levels generalizing depth past between future chain with
  | zero => exact ⟨.flat between, trivial, rfl, rfl⟩
  | succ levels ih =>
      by_cases several : 1 < between.length
      · obtain ⟨left, picture, right, rfl, halves, chartEq⟩ :=
          chart_halves levels depth past future chain several
        obtain ⟨first, firstHalved, firstInorder, firstMarks⟩ :=
          ih (depth + 1) past left picture (future :: chain)
        obtain ⟨second, secondHalved, secondInorder, secondMarks⟩ :=
          ih (depth + 1) picture right future chain
        refine ⟨.split first picture second, ⟨?_, firstHalved, secondHalved⟩, ?_, ?_⟩
        · rw [firstInorder, secondInorder]
          exact halves
        · rw [Pyramid.inorder, firstInorder, secondInorder]
        · rw [chartEq, firstMarks, secondMarks, Pyramid.marks]
      · rw [chart, dif_neg several]
        exact ⟨.flat between, trivial, rfl, rfl⟩

end Hierarchy

/-- An anchor with `order` follows at `place` upon the pictures before. -/
structure Outline.Unfolds (outlines : List Outline) (place order : Nat) : Prop where
  /-- The frames up to here were issued, the last of them as an anchor. -/
  closed : 0 < place → ∃ earlier other, earlier < place ∧ outlines[earlier]? = some other ∧
    other.depth = 0 ∧ other.displayOrder + 1 = place
  /-- The frames from here up to the anchor are issued next, in the preorder of their hierarchy. -/
  opened : ∃ pyramid : Pyramid Nat, pyramid.Halved ∧
    pyramid.inorder = List.range' place (order - place) ∧
    ((outlines.drop (place + 1)).take (order - place)).map Outline.displayOrder <+: pyramid.preorder ∧
    (outlines.drop (place + 1)).take (order - place) <+:
      (pyramid.marks 1 (place - 1) order []).map Mark.outline

namespace Cursor

variable {gop : Gop} {flags left : List Bool} {done outlines : List Outline} {cursor : Cursor}
  {skipped : Nat} {forced : Bool}

theorem pyramid_group (cursor : Cursor) (waiting : List Nat) (order : Nat)
    (opens : cursor.anchor = none → waiting = []) :
    ∃ pyramid : Pyramid Nat, pyramid.Halved ∧ pyramid.inorder = waiting ∧
      cursor.marks waiting order = pyramid.marks 1 (cursor.anchor.getD 0) order [] := by
  unfold marks groupMarks
  cases anchor : cursor.anchor with
  | none => exact ⟨.flat [], trivial, (opens anchor).symm, rfl⟩
  | some start => exact chart_pyramid ..

theorem Stage.unfolds (stage : Stage gop flags outlines done cursor left skipped forced) :
    Outline.Unfolds outlines done.length (cursor.next + skipped) := by
  have aligned := stage.aligned
  have opens := stage.opens
  have begins := stage.begins
  rw [stage.reaches.script, stage.closes.script] at begins
  constructor
  · intro started
    obtain ⟨_, nothing⟩ | ⟨top, member, depth, next, _⟩ := aligned.anchored
    · rw [nothing] at started
      cases started
    · obtain ⟨earlier, listed⟩ := List.mem_iff_getElem?.mp member
      have before := (List.getElem?_eq_some_iff.mp listed).1
      obtain ⟨more, split, _⟩ := stage.split
      refine ⟨earlier, top, before, ?_, depth, next⟩
      rw [split]
      exact getElem?_append_of_eq_some listed
  · obtain ⟨pyramid, halved, inorder, marksEq⟩ := pyramid_group cursor
      (List.range' cursor.next skipped) (cursor.next + skipped) fun none => by rw [opens none]; rfl
    have gap : cursor.next + skipped - done.length = skipped := by
      rw [aligned.next]
      omega
    have length : ((pyramid.marks 1 (cursor.anchor.getD 0) (cursor.next + skipped) []).map
        Mark.outline).length = skipped := by
      have turn := length_turn opens forced
      rw [Cursor.turn, group, List.length_cons, marksEq] at turn
      exact Nat.succ.inj turn
    have past : cursor.anchor.getD 0 = done.length - 1 := by
      obtain ⟨anchor, nothing⟩ | ⟨top, _, _, next, anchor⟩ := aligned.anchored
      · rw [anchor, nothing]
        rfl
      · rw [anchor, ← next]
        rfl
    have follows : (outlines.drop (done.length + 1)).take skipped <+:
        (pyramid.marks 1 (done.length - 1) (cursor.next + skipped) []).map Mark.outline := by
      have later := (begins.drop (done.length + 1)).take skipped
      rwa [Cursor.turn, group, List.cons_append, marksEq, List.drop_length_add_append,
        List.drop_succ_cons, List.drop_zero, List.take_left' length, past] at later
    refine ⟨pyramid, halved, by rw [inorder, gap, aligned.next], ?_, by rwa [gap]⟩
    rw [gap, ← pyramid.pictures_marks 1 (done.length - 1) (cursor.next + skipped) []]
    have shown := follows.map Outline.displayOrder
    rwa [List.map_map] at shown

end Cursor

namespace Encoder

open Recorded

variable {B : Backend} {start : Recorded B} {encoder : Encoder B.recorded}

theorem Foretold.turn {gop : Gop} {accepted frames : List Frame}
    (foretold : Foretold { gop } accepted frames encoder) {place : Nat} {request : Request B.Image}
    (asked : encoder.backend.requests[place]? = some request) :
    ∃ done cursor left skipped forced,
      Cursor.Stage gop (cuesOf frames) (encoder.backend.requests.map Request.outline) done cursor
        left skipped forced ∧
      done.length ≤ place ∧
      (cursor.turn skipped forced)[place - done.length]? = some request.outline := by
  obtain ⟨rest, script⟩ := foretold.script
  refine Cursor.exists_stage ⟨rest, script.symm⟩ (by cases frames <;> rfl) ?_
  rw [List.getElem?_map, asked, Option.map_some]

/-- No picture is issued before its place in display order by more places than a group has B-pictures,
nor after it by more than there are layers above it; and what follows an anchor is its group. -/
theorem Reachable.requests_unfold (nothing : start.calls = [])
    (reachable : Reachable (B := B.recorded) start SameCalls encoder) {place : Nat}
    {request : Request B.Image} (asked : encoder.backend.requests[place]? = some request) :
    (place ≤ request.picture.displayOrder + request.picture.depth ∧
      request.picture.depth ≤ encoder.scheduler.gop.maxBDepth ∧
      request.picture.displayOrder ≤ place + encoder.scheduler.gop.bPerGroup) ∧
    (request.picture.depth = 0 →
      Outline.Unfolds (encoder.backend.requests.map Request.outline) place
        request.picture.displayOrder) := by
  obtain ⟨config, gop, _, frames, valid, made, bPerGroup, maxBDepth, foretold⟩ :=
    reachable.foretold nothing
  obtain ⟨rest, script⟩ := foretold.script
  have timely := Begins.timely ⟨_, rest, script⟩ (Gop.layered_of_ofConfig? valid made) asked
  obtain ⟨done, cursor, left, skipped, forced, stage, within, listed⟩ := foretold.turn asked
  have few := stage.closes.few
  rw [stage.aligned.same.bPerGroup] at few
  have next := stage.aligned.next
  rw [maxBDepth, bPerGroup]
  rcases Cursor.turn_cases listed with ⟨here, top⟩ | ⟨later, _, deep, _, before⟩
  · have order : request.picture.displayOrder = cursor.next + skipped :=
      congrArg Outline.displayOrder top
    have atPlace : done.length = place := by omega
    refine ⟨⟨timely.late, timely.shallow, by omega⟩, fun _ => ?_⟩
    rw [order, ← atPlace]
    exact stage.unfolds
  · have early : request.picture.displayOrder < cursor.next + skipped := before
    refine ⟨⟨timely.late, timely.shallow, by omega⟩, fun top => ?_⟩
    exact absurd top (Nat.ne_of_gt deep)

/-- Seven frames with a group of five B-pictures in three layers. -/
def layered : Encoder Backend.simulated.recorded :=
  (film (Device.create .immediate none) { maxBFrames := 5, bDepth := 3 } .blocking
    (List.replicate 7 (.encode {}))).2

theorem requests_unfold_layered :
    layered.backend.requests.map
        (fun request => (request.picture.displayOrder, request.picture.depth)) =
      [(0, 0), (6, 0), (3, 1), (1, 2), (2, 3), (4, 2), (5, 3)] ∧
    ∃ request, layered.backend.requests[1]? = some request ∧
      (1 ≤ request.picture.displayOrder + request.picture.depth ∧
        request.picture.depth ≤ layered.scheduler.gop.maxBDepth ∧
        request.picture.displayOrder ≤ 1 + layered.scheduler.gop.bPerGroup) ∧
      Outline.Unfolds (layered.backend.requests.map Request.outline) 1
        request.picture.displayOrder := by
  have reachable : Reachable (B := Backend.simulated.recorded)
      { inner := Device.create .immediate none } SameCalls layered :=
    (Calls.none.performAll _).reachable (.created { maxBFrames := 5, bDepth := 3 } .blocking rfl)
  have asked : (layered.backend.requests[1]?.map fun request => request.picture.depth) = some 0 := by
    decide +kernel
  obtain ⟨request, asked, top⟩ := Option.map_eq_some_iff.mp asked
  have unfolds := Reachable.requests_unfold rfl reachable asked
  exact ⟨by decide +kernel, request, asked, unfolds.1, unfolds.2 top⟩

end Encoder

end VideoSchedule

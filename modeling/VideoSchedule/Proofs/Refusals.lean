import Mathlib.Data.List.Perm.Subperm
import VideoSchedule.Proofs.Streams

/-!
What requests may refer to. Every picture that a request lists was asked for before, as a reference
picture. Whether the backend took that request is not looked at: a picture that it refused stays a
reference for the pictures after it, unless it was none.
-/

namespace VideoSchedule

open VideoSchedule.Action

/-! Lists in which everything that is needed was offered before. -/

section Refers

variable {α β γ : Type} {needs offers : β → List α} {known more : List α} {first second items : List β}
  {item : β} {index : Nat} {name : α}

def Refers (needs offers : β → List α) (known : List α) : List β → Prop
  | [] => True
  | item :: rest =>
    (∀ name ∈ needs item, name ∈ known) ∧ Refers needs offers (known ++ offers item) rest

theorem Refers.mono (refers : Refers needs offers known items)
    (wider : ∀ name ∈ known, name ∈ more) : Refers needs offers more items := by
  induction items generalizing known more with
  | nil => trivial
  | cons item rest ih =>
      refine ⟨fun name needed => wider name (refers.1 name needed), ih refers.2 ?_⟩
      intro name member
      rcases List.mem_append.mp member with old | offered
      · exact List.mem_append_left _ (wider name old)
      · exact List.mem_append_right _ offered

theorem Refers.append (head : Refers needs offers known first)
    (tail : Refers needs offers (known ++ first.flatMap offers) second) :
    Refers needs offers known (first ++ second) := by
  induction first generalizing known with
  | nil =>
      rw [List.flatMap_nil, List.append_nil] at tail
      exact tail
  | cons item rest ih =>
      refine ⟨head.1, ih head.2 ?_⟩
      rwa [List.append_assoc, ← List.flatMap_cons]

theorem Refers.of_append (refers : Refers needs offers known (first ++ second)) :
    Refers needs offers known first := by
  induction first generalizing known with
  | nil => trivial
  | cons item rest ih => exact ⟨refers.1, ih refers.2⟩

theorem Refers.map {rename : γ → β} {entries : List γ}
    (refers : Refers (needs ∘ rename) (offers ∘ rename) known entries) :
    Refers needs offers known (entries.map rename) := by
  induction entries generalizing known with
  | nil => trivial
  | cons entry rest ih => exact ⟨refers.1, ih refers.2⟩

theorem Refers.earlier (refers : Refers needs offers known items) (listed : items[index]? = some item)
    (needed : name ∈ needs item) : name ∈ known ∨
      ∃ place other, place < index ∧ items[place]? = some other ∧ name ∈ offers other := by
  induction items generalizing known index with
  | nil => cases listed
  | cons head rest ih =>
      cases index with
      | zero =>
          cases listed
          exact Or.inl (refers.1 name needed)
      | succ index =>
          rcases ih refers.2 listed with member | ⟨place, other, before, found, offered⟩
          · rcases List.mem_append.mp member with old | offered
            · exact Or.inl old
            · exact Or.inr ⟨0, head, by omega, rfl, offered⟩
          · exact Or.inr ⟨place + 1, other, by omega, found, offered⟩

end Refers

/-! Scripts. -/

namespace Mark

variable {α : Type}

def offers (mark : Mark α) : List α := if mark.isReference then [mark.picture] else []

theorem last_offered (previous : α) (marks : List (Mark α)) :
    last previous marks ∈ previous :: marks.flatMap offers := by
  rcases last_cases previous marks with ⟨_, same⟩ | ⟨_, mark, member, isReference, same⟩
  · rw [same]
    exact List.mem_cons_self
  · refine List.mem_cons_of_mem _ (List.mem_flatMap.mpr ⟨mark, member, ?_⟩)
    rw [offers, if_pos isReference, same]
    exact List.mem_singleton_self _

end Mark

namespace Outline

def offers (outline : Outline) : List Nat :=
  if outline.isReference then [outline.displayOrder] else []

end Outline

namespace Hierarchy

variable {α : Type}

theorem refers_chart (levels depth : Nat) (past : α) (between : List α) (future : α)
    (chain : List α) {known : List α} (around : ∀ name ∈ past :: future :: chain, name ∈ known) :
    Refers Mark.needs Mark.offers known (chart levels depth past between future chain) := by
  refine chart_induction (motive := fun _ _ past _ future chain marks => ∀ known : List α,
    (∀ name ∈ past :: future :: chain, name ∈ known) → Refers Mark.needs Mark.offers known marks)
    ?_ ?_ levels depth past between future chain known around
  · intro _ depth past between future chain known around
    induction between with
    | nil => trivial
    | cons picture rest ih => exact ⟨around, ih.mono fun _ => List.mem_append_left _⟩
  · intro levels depth past left picture right future chain leftMarks rightMarks first second known
      around
    refine ⟨around, Refers.append (first _ ?_) (second _ ?_)⟩
    · intro name member
      simp only [List.mem_cons, List.mem_append, Mark.offers, if_true, List.not_mem_nil] at *
      grind
    · intro name member
      simp only [List.mem_cons, List.mem_append, Mark.offers, if_true, List.not_mem_nil] at *
      grind

end Hierarchy

namespace PastPictures

theorem insertOrder_subset (order candidate : Nat) (candidates : List Nat) :
    ∀ name ∈ insertOrder order candidate candidates, name ∈ candidate :: candidates := by
  induction candidates with
  | nil => simp [insertOrder]
  | cons next rest ih =>
      intro name member
      rw [insertOrder] at member
      split at member
      · exact member
      · simp only [List.mem_cons] at member ih ⊢
        rcases member with same | member
        · exact Or.inr (Or.inl same)
        · exact (ih name member).imp id Or.inr

theorem nearest_subset (order : Nat) (candidates : List Nat) :
    ∀ name ∈ nearest order candidates, name ∈ candidates := by
  induction candidates with
  | nil => simp [nearest]
  | cons candidate rest ih =>
      intro name member
      rcases List.mem_cons.mp (insertOrder_subset order candidate _ name member) with same | member
      · exact List.mem_cons.mpr (Or.inl same)
      · exact List.mem_cons_of_mem _ (ih name member)

end PastPictures

namespace Cursor

variable {cursor : Cursor} {known : List Nat}

structure Knows (cursor : Cursor) (known : List Nat) : Prop where
  anchor : ∀ start, cursor.anchor = some start → start ∈ known
  recent : ∀ name ∈ cursor.recent, name ∈ known

theorem Knows.targets (knows : cursor.Knows known) (order : Nat) :
    ∀ name ∈ cursor.targets order, name ∈ known := by
  intro name member
  unfold Cursor.targets at member
  split at member
  · exact knows.recent name (PastPictures.nearest_subset order _ name member)
  · exact knows.anchor name (Option.mem_toList.mp member)

theorem refers_outlines {marks : List (Mark Nat)}
    (refers : Refers Mark.needs Mark.offers known marks) :
    Refers Outline.needs Outline.offers known (marks.map Mark.outline) := by
  refine Refers.map ?_
  induction marks generalizing known with
  | nil => trivial
  | cons mark rest ih =>
      refine ⟨fun name member => refers.1 name ?_, ih refers.2⟩
      simp only [Function.comp, Outline.needs, Mark.outline, Mark.needs, List.mem_append,
        List.mem_cons, List.not_mem_nil, or_false] at member ⊢
      tauto

theorem offers_outlines (marks : List (Mark Nat)) :
    (marks.map Mark.outline).flatMap Outline.offers = marks.flatMap Mark.offers := by
  rw [List.flatMap_map]
  rfl

theorem Knows.refers_group (knows : cursor.Knows known) (waiting : List Nat) (order : Nat)
    (forced : Bool) :
    Refers Outline.needs Outline.offers known (cursor.group waiting order forced) := by
  constructor
  · intro name member
    simp only [Outline.needs, top, List.append_nil, List.mem_append] at member
    rcases member with member | member
    · split at member
      · cases member
      · exact knows.targets order name member
    · split at member
      · cases member
      · exact knows.targets order name member
  · apply refers_outlines
    unfold marks Hierarchy.groupMarks
    split
    · trivial
    · rename_i start anchored
      apply Hierarchy.refers_chart
      intro name member
      simp only [Outline.offers, top, if_true, List.mem_append, List.mem_cons,
        List.not_mem_nil, or_false] at member ⊢
      rcases member with rfl | rfl
      · exact Or.inl (knows.anchor _ anchored)
      · exact Or.inr rfl

theorem Knows.pass (knows : cursor.Knows known) (waiting : List Nat) (order : Nat) (forced : Bool) :
    (cursor.pass waiting order forced).Knows
      (known ++ (cursor.group waiting order forced).flatMap Outline.offers) := by
  have offered : (cursor.group waiting order forced).flatMap Outline.offers =
      order :: (cursor.marks waiting order).flatMap Mark.offers := by
    rw [Cursor.group, List.flatMap_cons, offers_outlines]
    rfl
  rw [offered]
  constructor
  · intro start same
    cases same
    exact List.mem_append_right _ List.mem_cons_self
  · intro name member
    rcases List.mem_append.mp member with old | last
    · exact List.mem_append_left _ (knows.recent name (PastPictures.room_subset _ _ name old))
    · rw [List.mem_singleton.mp last]
      exact List.mem_append_right _ (Mark.last_offered order _)

theorem Knows.refers_script (knows : cursor.Knows known) (waiting : List Nat) (flags : List Bool) :
    Refers Outline.needs Outline.offers known (script flags cursor waiting) := by
  induction flags generalizing cursor waiting known with
  | nil =>
      rw [script]
      split
      · trivial
      · exact knows.refers_group _ _ _
  | cons forced rest ih =>
      rw [script]
      split
      · exact (knows.refers_group _ _ _).append (ih (knows.pass _ _ _) _)
      · have later : ({ cursor with next := cursor.next + 1 } : Cursor).Knows known :=
          ⟨knows.anchor, knows.recent⟩
        exact ih later _

/-! No picture has its turn twice. -/

theorem orders_group_subperm (cursor : Cursor) (waiting : List Nat) (order : Nat) (forced : Bool) :
    ((cursor.group waiting order forced).map Outline.displayOrder).Subperm (order :: waiting) := by
  cases anchored : cursor.anchor with
  | some start =>
      have opens : cursor.anchor = none → waiting = [] := by simp [anchored]
      exact (orders_group opens).subperm
  | none =>
      have none : cursor.marks waiting order = [] := by simp [marks, Hierarchy.groupMarks, anchored]
      rw [group, none]
      exact (List.singleton_sublist.mpr List.mem_cons_self).subperm

theorem orders_script_subperm (cursor : Cursor) (waiting : List Nat) (flags : List Bool) :
    ((script flags cursor waiting).map Outline.displayOrder).Subperm
      (waiting ++ List.range' cursor.next flags.length) := by
  induction flags generalizing cursor waiting with
  | nil =>
      rw [script]
      cases lastEq : waiting.getLast? with
      | none => exact List.nil_subperm
      | some last =>
          obtain ⟨front, rfl⟩ := List.getLast?_eq_some_iff.mp lastEq
          dsimp only
          rw [List.dropLast_concat, List.length_nil, List.range'_zero, List.append_nil]
          exact (orders_group_subperm _ _ _ _).trans (List.perm_append_singleton last front).symm.subperm
  | cons forced rest ih =>
      rw [script, List.length_cons, List.range'_succ]
      split
      · rw [List.map_append]
        have group := orders_group_subperm cursor waiting cursor.next forced
        have later := ih (cursor.pass waiting cursor.next forced) []
        rw [List.nil_append] at later
        exact (group.append later).trans List.perm_middle.symm.subperm
      · have later := ih { cursor with next := cursor.next + 1 } (waiting ++ [cursor.next])
        rwa [List.append_assoc] at later

theorem nodup_script (gop : Gop) (flags : List Bool) :
    ((script flags { gop } []).map Outline.displayOrder).Nodup := by
  obtain ⟨orders, same, within⟩ := orders_script_subperm { gop } [] flags
  apply same.nodup_iff.mp
  apply within.nodup
  exact List.nodup_range'

end Cursor

namespace Encoder

open Recorded

variable {B : Backend} {start : Recorded B} {encoder : Encoder B.recorded}

theorem refusal_requested (state : Recorded B) :
    ∀ refusal ∈ state.refusals, refusal ∈ state.requests := by
  intro refusal member
  obtain ⟨call, called, same⟩ := List.mem_filterMap.mp member
  refine List.mem_filterMap.mpr ⟨call, called, ?_⟩
  cases call with
  | issue request failure =>
      cases failure with
      | none => cases same
      | some cause => exact same
  | alloc => cases same
  | sync => cases same
  | output => cases same
  | free => cases same

theorem Reachable.outlines (nothing : start.calls = [])
    (reachable : Reachable (B := B.recorded) start SameCalls encoder) :
    Refers Outline.needs Outline.offers [] (encoder.backend.requests.map Request.outline) ∧
      (encoder.backend.requests.map fun request => request.picture.displayOrder).Nodup := by
  obtain ⟨_, gop, _, cues, rest, script⟩ := reachable.begins nothing
  constructor
  · have knows : ({ gop } : Cursor).Knows [] := ⟨by simp, by simp⟩
    have refers := knows.refers_script [] cues
    rw [script] at refers
    exact refers.of_append
  · have distinct := Cursor.nodup_script gop cues
    rw [script, List.map_append, List.map_map] at distinct
    exact (List.nodup_append.mp distinct).1

/-- Every picture that a request lists was asked for before it as a reference picture. So a picture
that the backend refused is not listed if it was to be no reference picture. -/
theorem Reachable.lists_requested (nothing : start.calls = [])
    (reachable : Reachable (B := B.recorded) start SameCalls encoder) {index : Nat}
    {request : Request B.Image} (asked : encoder.backend.requests[index]? = some request) :
    ∀ reference ∈ request.past ++ request.future ++ request.dpb,
      (∃ place other, place < index ∧ encoder.backend.requests[place]? = some other ∧
        other.picture.isReference = true ∧
        other.picture.displayOrder = reference.info.displayOrder) ∧
      ∀ refusal ∈ encoder.backend.refusals, refusal.picture.isReference = false →
        refusal.picture.displayOrder ≠ reference.info.displayOrder := by
  obtain ⟨refers, distinct⟩ := reachable.outlines nothing
  intro reference member
  have listed : (encoder.backend.requests.map Request.outline)[index]? = some request.outline := by
    rw [List.getElem?_map, asked]
    rfl
  have needed : reference.info.displayOrder ∈ request.outline.needs := by
    have named := List.mem_map_of_mem (f := fun kept => kept.info.displayOrder) member
    rwa [List.map_append, List.map_append] at named
  obtain ⟨place, outline, before, found, offered⟩ :=
    (refers.earlier listed needed).resolve_left List.not_mem_nil
  rw [List.getElem?_map, Option.map_eq_some_iff] at found
  obtain ⟨other, found, rfl⟩ := found
  unfold Outline.offers at offered
  split at offered
  next isReference =>
    have same : other.picture.displayOrder = reference.info.displayOrder :=
      (List.mem_singleton.mp offered).symm
    refine ⟨⟨place, other, before, found, isReference, same⟩, ?_⟩
    intro refusal refused plain clash
    have twice := List.inj_on_of_nodup_map distinct (refusal_requested _ refusal refused)
      (List.mem_of_getElem? found) (clash.trans same.symm)
    subst twice
    exact absurd (isReference.symm.trans plain) (by simp)
  next => cases offered

def refusing (displayOrder : Nat) (config : Config) : Encoder Backend.simulated.recorded :=
  (film { Device.create .immediate none with failIssue := some (displayOrder, false) } config
    .blocking (List.replicate 5 (.encode {}))).2

theorem lists_requested_refusing :
    (refusing 1 {}).backend.refusals.map (fun refusal => refusal.picture.displayOrder) = [1] ∧
      ∃ request, (refusing 1 {}).backend.requests[3]? = some request ∧
        request.picture.displayOrder = 2 ∧
        ∀ reference ∈ request.past ++ request.future ++ request.dpb,
          (∃ place other, place < 3 ∧ (refusing 1 {}).backend.requests[place]? = some other ∧
            other.picture.isReference = true ∧
            other.picture.displayOrder = reference.info.displayOrder) ∧
          ∀ refusal ∈ (refusing 1 {}).backend.refusals, refusal.picture.isReference = false →
            refusal.picture.displayOrder ≠ reference.info.displayOrder := by
  have reachable : Reachable (B := Backend.simulated.recorded)
      { inner := { Device.create .immediate none with failIssue := some (1, false) } } SameCalls
      (refusing 1 {}) :=
    (Calls.none.performAll _).reachable (.created {} .blocking rfl)
  have asked : ((refusing 1 {}).backend.requests[3]?.map fun request =>
      request.picture.displayOrder) = some 2 := by decide +kernel
  obtain ⟨request, listed, order⟩ := Option.map_eq_some_iff.mp asked
  refine ⟨by decide +kernel, request, listed, order, ?_⟩
  exact Reachable.lists_requested rfl reachable listed

theorem lists_refused_anchor :
    Reachable (B := Backend.simulated.recorded)
        { inner := { Device.create .immediate none with failIssue := some (1, false) } } SameCalls
        (refusing 1 { maxBFrames := 0 }) ∧
      (refusing 1 { maxBFrames := 0 }).failed = false ∧
      ∃ refusal ∈ (refusing 1 { maxBFrames := 0 }).backend.refusals,
        ∃ request ∈ (refusing 1 { maxBFrames := 0 }).backend.requests,
          ∃ reference ∈ request.past, reference.info = refusal.picture := by
  refine ⟨(Calls.none.performAll _).reachable (.created { maxBFrames := 0 } .blocking rfl), ?_, ?_⟩
  · decide +kernel
  · decide +kernel

end Encoder

end VideoSchedule

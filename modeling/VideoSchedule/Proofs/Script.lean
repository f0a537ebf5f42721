import VideoSchedule.Proofs.Chart
import VideoSchedule.Proofs.Schedule

/-!
The script of a stream: which pictures are issued in which order, of which type, and what each of
them refers to. It depends on the structure of the stream and on the keyframes asked for, and on
nothing else.
-/

namespace VideoSchedule

open Hierarchy

/-- What is decided about a picture. Pictures are named by display orders, and `dpb` leaves out the
picture itself. -/
structure Outline where
  displayOrder : Nat
  type : PictureType
  depth : Nat
  isReference : Bool
  past : List Nat
  future : List Nat
  dpb : List Nat
deriving DecidableEq, Repr

namespace Outline

def needs (outline : Outline) : List Nat := outline.past ++ outline.future ++ outline.dpb

def leaves (outline : Outline) : List Nat :=
  outline.dpb ++ if outline.isReference then [outline.displayOrder] else []

end Outline

def Mark.outline (mark : Mark Nat) : Outline where
  displayOrder := mark.picture
  type := .bidirectional
  depth := mark.depth
  isReference := mark.isReference
  past := [mark.past]
  future := [mark.future]
  dpb := mark.needs

theorem decodes_outlines {kept : List Nat} {marks : List (Mark Nat)}
    (decodes : Decodes Mark.needs Mark.leaves kept marks) :
    Decodes Outline.needs Outline.leaves kept (marks.map Mark.outline) := by
  refine Decodes.map ?_
  induction marks generalizing kept with
  | nil => trivial
  | cons mark rest ih =>
      refine ⟨fun name member => decodes.1 name ?_, ih decodes.2⟩
      simp only [Function.comp, Outline.needs, Mark.outline, Mark.needs, List.mem_append,
        List.mem_cons, List.not_mem_nil, or_false] at member ⊢
      tauto

/-! Groups. -/

/-- How far a script has come: the structure of the stream from here on, the last anchor, the past
pictures and the next frame. -/
structure Cursor where
  gop : Gop
  anchor : Option Nat := none
  recent : List Nat := []
  next : Nat := 0

namespace Cursor

variable {cursor : Cursor} {waiting : List Nat} {order : Nat} {forced : Bool} {flags rest : List Bool}

/-- Whether the next frame becomes an anchor, with `skipped` pictures waiting before it and `rest`
behind it, see `Scheduler.findAnchor`. -/
def Stops (cursor : Cursor) (skipped : Nat) (forced : Bool) (rest : List Bool) : Prop :=
  forced = true ∨ skipped = cursor.gop.bPerGroup ∨
    cursor.gop.reachesEnd skipped cursor.gop.endsClosed = true ∨ rest.headD false = true

instance (cursor : Cursor) (skipped : Nat) (forced : Bool) (rest : List Bool) :
    Decidable (cursor.Stops skipped forced rest) := by
  unfold Stops
  infer_instance

def type (cursor : Cursor) (waiting : List Nat) (forced : Bool) : PictureType :=
  (cursor.gop.nextTop forced waiting.length).1

def targets (cursor : Cursor) (order : Nat) : List Nat :=
  if cursor.gop.multiReference then PastPictures.nearest order cursor.recent
  else cursor.anchor.toList

def marks (cursor : Cursor) (waiting : List Nat) (order : Nat) : List (Mark Nat) :=
  groupMarks cursor.gop.maxBDepth cursor.anchor waiting order

def top (cursor : Cursor) (waiting : List Nat) (order : Nat) (forced : Bool) : Outline where
  displayOrder := order
  type := cursor.type waiting forced
  depth := 0
  isReference := true
  past := if (cursor.type waiting forced).isKey then [] else cursor.targets order
  future := []
  dpb :=
    if cursor.type waiting forced = .idr ∨ waiting = [] then [] else cursor.targets order

def group (cursor : Cursor) (waiting : List Nat) (order : Nat) (forced : Bool) : List Outline :=
  cursor.top waiting order forced :: (cursor.marks waiting order).map Mark.outline

def pass (cursor : Cursor) (waiting : List Nat) (order : Nat) (forced : Bool) : Cursor where
  gop := (cursor.gop.nextTop forced waiting.length).2
  anchor := some order
  recent :=
    PastPictures.room (lastType (cursor.type waiting forced) (cursor.marks waiting order))
      cursor.recent ++ [Mark.last order (cursor.marks waiting order)]
  next := order + 1

/-- The script of the rest of a stream. `flags` say which of the frames to come have to be IDR
pictures; the pictures of `waiting` came before those and wait for their anchor. The last picture of
all is an anchor. -/
def script : List Bool → Cursor → List Nat → List Outline
  | [], cursor, waiting =>
    match waiting.getLast? with
    | none => []
    | some last => cursor.group waiting.dropLast last false
  | forced :: rest, cursor, waiting =>
    if cursor.Stops waiting.length forced rest then
      cursor.group waiting cursor.next forced ++
        script rest (cursor.pass waiting cursor.next forced) []
    else script rest { cursor with next := cursor.next + 1 } (waiting ++ [cursor.next])

theorem script_of_stops (stops : cursor.Stops waiting.length forced rest) :
    script (forced :: rest) cursor waiting =
      cursor.group waiting cursor.next forced ++
        script rest (cursor.pass waiting cursor.next forced) [] := by
  rw [script, if_pos stops]

theorem script_of_continues (continues : ¬cursor.Stops waiting.length forced rest) :
    script (forced :: rest) cursor waiting =
      script rest { cursor with next := cursor.next + 1 } (waiting ++ [cursor.next]) := by
  rw [script, if_neg continues]

/-! Every picture finds what it refers to. -/

def Open (cursor : Cursor) (waiting : List Nat) (flags : List Bool) : Prop :=
  waiting ≠ [] → cursor.gop.reachesEnd (waiting.length - 1) cursor.gop.endsClosed = false ∧
    flags.headD false = false

theorem type_ne_idr (some : waiting ≠ [])
    (goesOn : cursor.gop.reachesEnd (waiting.length - 1) cursor.gop.endsClosed = false) :
    cursor.type waiting false ≠ .idr := by
  have positive := List.length_pos_iff.mpr some
  intro idr
  simp only [type, Gop.nextTop, Bool.false_eq_true, if_false] at idr
  split at idr
  next full =>
    split at idr
    next last =>
      have closed : cursor.gop.endsClosed = true := by simp [Gop.endsClosed, last]
      simp only [Gop.reachesEnd, closed, Bool.toNat_true, decide_eq_false_iff_not] at goesOn
      omega
    next => cases idr
  next => split at idr <;> cases idr

theorem nextTop_multiReference (gop : Gop) (forced : Bool) (skipped : Nat) :
    (gop.nextTop forced skipped).2.multiReference = gop.multiReference := by
  unfold Gop.nextTop
  split
  · rfl
  split
  · split <;> rfl
  · rfl

theorem decodes_group (single : cursor.gop.multiReference = false)
    (key : waiting ≠ [] → cursor.type waiting forced ≠ .idr) {kept : List Nat}
    (keeps : ∀ start, cursor.anchor = some start → start ∈ kept) {later : List Outline}
    (after : ∀ left : List Nat, order ∈ left → Decodes Outline.needs Outline.leaves left later) :
    Decodes Outline.needs Outline.leaves kept (cursor.group waiting order forced ++ later) := by
  -- with one past reference an anchor refers to the anchor before it and to nothing else
  have targetsEq : cursor.targets order = cursor.anchor.toList := by simp [targets, single]
  have needs : ∀ name ∈ (cursor.top waiting order forced).needs, name ∈ kept := by
    intro name member
    refine keeps name ?_
    simp only [Outline.needs, top, targetsEq, List.append_nil, List.mem_append] at member
    rcases member with member | member
    · split at member
      · cases member
      · exact Option.mem_toList.mp member
    · split at member
      · cases member
      · exact Option.mem_toList.mp member
  have leavesTop : order ∈ (cursor.top waiting order forced).leaves := by
    simp [Outline.leaves, top]
  refine ⟨needs, ?_⟩
  cases startEq : cursor.anchor with
  | none =>
      have noMarks : cursor.marks waiting order = [] := by simp [marks, groupMarks, startEq]
      rw [noMarks]
      exact after _ leavesTop
  | some start =>
      by_cases empty : waiting = []
      · have noMarks : cursor.marks waiting order = [] := by
          rw [marks, empty, groupMarks_nil]
        rw [noMarks]
        exact after _ leavesTop
      · have marksEq : cursor.marks waiting order =
            chart (cursor.gop.maxBDepth - 1) 1 start waiting order [] := by
          simp [marks, groupMarks, startEq]
        -- the group needs both anchors, and an IDR picture would not keep the first one
        have leavesStart : start ∈ (cursor.top waiting order forced).leaves := by
          simp [Outline.leaves, top, key empty, empty, targetsEq, startEq]
        rw [marksEq]
        have keepsOrder : ∀ name ∈ [order], name ∈ (cursor.top waiting order forced).leaves := by
          simpa using leavesTop
        refine Decodes.append (decodes_outlines (decodes_chart _ _ _ _ _ _ fun name member => ?_))
          keepsOrder (fun outline member name shared => ?_)
          fun left keepsIt => after left (keepsIt order (List.mem_singleton_self order))
        · simp only [List.mem_cons, List.not_mem_nil, or_false] at member
          rcases member with rfl | rfl
          · exact leavesStart
          · exact leavesTop
        · obtain ⟨mark, isMark, rfl⟩ := List.mem_map.mp member
          exact List.mem_append_left _ (keeps_chart _ _ _ _ _ _ mark isMark name shared)

theorem decodes_script (single : cursor.gop.multiReference = false)
    (goesOn : cursor.Open waiting flags) {kept : List Nat}
    (keeps : ∀ start, cursor.anchor = some start → start ∈ kept) :
    Decodes Outline.needs Outline.leaves kept (script flags cursor waiting) := by
  induction flags generalizing cursor waiting kept with
  | nil =>
      rw [script]
      cases lastEq : waiting.getLast? with
      | none => trivial
      | some last =>
          obtain ⟨front, rfl⟩ := List.getLast?_eq_some_iff.mp lastEq
          dsimp only
          rw [List.dropLast_concat]
          rw [← List.append_nil (cursor.group front last false)]
          refine decodes_group single (fun some => type_ne_idr some ?_) keeps fun _ _ => trivial
          have before := (goesOn (by simp)).1
          simp only [Gop.reachesEnd, decide_eq_false_iff_not, List.length_append,
            List.length_singleton] at before ⊢
          omega
  | cons forced rest ih =>
      rw [script]
      split
      next stops =>
        refine decodes_group single (fun some => ?_) keeps fun left keepsIt => ?_
        · obtain ⟨before, unforced⟩ := goesOn some
          simp only [List.headD_cons] at unforced
          subst unforced
          exact type_ne_idr some before
        · refine ih ?_ (fun none => absurd rfl none) fun start same => ?_
          · exact (nextTop_multiReference ..).trans single
          · cases same
            exact keepsIt
      next continues =>
        refine @ih { cursor with next := cursor.next + 1 } _ single (fun _ => ?_) _ keeps
        rw [Stops, not_or, not_or, not_or] at continues
        simpa using continues.2.2

/-! Every picture has its turn once. -/

theorem orders_group (opens : cursor.anchor = none → waiting = []) :
    ((cursor.group waiting order forced).map Outline.displayOrder).Perm (order :: waiting) := by
  refine List.Perm.cons order ?_
  rw [List.map_map]
  exact pictures_groupMarks order opens cursor.gop.maxBDepth

theorem orders_script (opens : cursor.anchor = none → waiting = [] ∧ flags.headD true = true) :
    ((script flags cursor waiting).map Outline.displayOrder).Perm
      (waiting ++ List.range' cursor.next flags.length) := by
  induction flags generalizing cursor waiting with
  | nil =>
      rw [script]
      cases lastEq : waiting.getLast? with
      | none => simp [List.getLast?_eq_none_iff.mp lastEq]
      | some last =>
          obtain ⟨front, rfl⟩ := List.getLast?_eq_some_iff.mp lastEq
          dsimp only
          rw [List.dropLast_concat]
          refine (orders_group fun none => absurd (opens none).1 (by simp)).trans ?_
          simpa using (List.perm_append_singleton last front).symm
  | cons forced rest ih =>
      rw [script, List.length_cons, List.range'_succ]
      split
      next stops =>
        rw [List.map_append]
        refine ((orders_group fun none => (opens none).1).append
          (ih (by simp [pass]))).trans ?_
        have nextEq : (cursor.pass waiting cursor.next forced).next = cursor.next + 1 := rfl
        rw [nextEq, List.nil_append]
        exact List.perm_middle.symm
      next continues =>
        refine (ih fun none => ?_).trans ?_
        · have unforced : forced ≠ true := fun same => continues (Or.inl same)
          exact absurd (opens none).2 (by simpa using unforced)
        · simp

/-! The search for an anchor follows the script. -/

/-- The next group of a script has `skipped` pictures that wait for an anchor. -/
def Turns (cursor : Cursor) (flags : List Bool) (ended : Bool) (skipped : Nat) (forced : Bool) :
    Prop :=
  ∀ future, (ended = true → future = []) →
    script (flags ++ future) cursor [] =
      cursor.group (List.range' cursor.next skipped) (cursor.next + skipped) forced ++
        script (flags.drop (skipped + 1) ++ future)
          (cursor.pass (List.range' cursor.next skipped) (cursor.next + skipped) forced) []

section

variable {ι : Type}

def flagsOf (entries : List (Handle × Picture ι)) : List Bool :=
  entries.map fun entry => entry.2.forceIdr

theorem flagsOf_cons (handle : Handle) (picture : Picture ι) (rest : List (Handle × Picture ι)) :
    flagsOf ((handle, picture) :: rest) = picture.forceIdr :: flagsOf rest := rfl

theorem forcedNext_eq (entries : List (Handle × Picture ι)) :
    Scheduler.forcedNext entries = (flagsOf entries).headD false := by
  cases entries <;> rfl

theorem script_of_anchor {entries : List (Handle × Picture ι)} {group found : Scheduler.Group}
    {handle : Handle} (fresh : ∀ entry ∈ entries, entry.2.issued = false)
    (finds : Scheduler.findAnchor cursor.gop group entries = (found, some handle))
    (skipped : waiting.length = group.skipped) :
    ∃ front picture rest, entries = front ++ (handle, picture) :: rest ∧
      found = { group with
        between := group.between ++ front.map Prod.fst
        skipped := group.skipped + front.length } ∧
      ∀ future, script (flagsOf entries ++ future) cursor waiting =
        cursor.group (waiting ++ List.range' cursor.next front.length)
            (cursor.next + front.length) picture.forceIdr ++
          script (flagsOf rest ++ future)
            (cursor.pass (waiting ++ List.range' cursor.next front.length)
              (cursor.next + front.length) picture.forceIdr) [] := by
  induction entries generalizing group cursor waiting with
  | nil => cases finds
  | cons entry rest ih =>
      obtain ⟨key, picture⟩ := entry
      have unissued : picture.issued = false := fresh (key, picture) (List.mem_cons_self ..)
      rw [Scheduler.findAnchor, if_neg (by simp [unissued])] at finds
      split at finds
      next stops =>
        cases finds
        refine ⟨[], picture, rest, rfl, by simp, fun future => ?_⟩
        have stopsHere : cursor.Stops waiting.length picture.forceIdr (flagsOf rest ++ future) := by
          rw [Stops, skipped]
          refine stops.imp_right (Or.imp_right (Or.imp_right fun forced => ?_))
          rw [forcedNext_eq] at forced
          cases next : flagsOf rest with
          | nil => simp [next] at forced
          | cons first others => simpa [next] using forced
        rw [flagsOf_cons, List.cons_append, script_of_stops stopsHere]
        simp
      next continues =>
        have longer : (waiting ++ [cursor.next]).length = group.skipped + 1 := by
          simp [skipped]
        obtain ⟨front, anchor, back, split, foundEq, follows⟩ :=
          @ih { cursor with next := cursor.next + 1 } _ _
            (fun entry member => fresh entry (List.mem_cons_of_mem _ member)) finds longer
        refine ⟨(key, picture) :: front, anchor, back, by rw [split]; rfl, ?_, fun future => ?_⟩
        · rw [foundEq]
          simp [Nat.add_assoc, Nat.add_comm 1]
        · have goesOn : ¬cursor.Stops waiting.length picture.forceIdr (flagsOf rest ++ future) := by
            rw [Stops, skipped]
            refine fun stops => continues (stops.imp_right (Or.imp_right (Or.imp_right ?_)))
            rw [forcedNext_eq, split]
            simp [flagsOf]
          have here := follows future
          simp only [List.append_assoc, List.singleton_append] at here
          have shifted : cursor.next + 1 + front.length = cursor.next + (front.length + 1) := by
            omega
          rw [shifted] at here
          rw [List.length_cons, List.range'_succ, flagsOf_cons, List.cons_append,
            script_of_continues goesOn]
          exact here

theorem script_of_no_anchor {entries : List (Handle × Picture ι)} {group found : Scheduler.Group}
    (fresh : ∀ entry ∈ entries, entry.2.issued = false)
    (finds : Scheduler.findAnchor cursor.gop group entries = (found, none))
    (skipped : waiting.length = group.skipped) :
    script (flagsOf entries) cursor waiting =
      script [] cursor (waiting ++ List.range' cursor.next entries.length) ∧
    (∀ entry ∈ entries, entry.2.forceIdr = false) ∧
    found.skipped = group.skipped + entries.length := by
  induction entries generalizing group cursor waiting with
  | nil =>
      cases finds
      simp [flagsOf]
  | cons entry rest ih =>
      obtain ⟨key, picture⟩ := entry
      have unissued : picture.issued = false := fresh (key, picture) (List.mem_cons_self ..)
      rw [Scheduler.findAnchor, if_neg (by simp [unissued])] at finds
      split at finds
      next => cases finds
      next continues =>
        have longer : (waiting ++ [cursor.next]).length = group.skipped + 1 := by
          simp [skipped]
        obtain ⟨follows, unforced, counted⟩ :=
          @ih { cursor with next := cursor.next + 1 } _ _
            (fun entry member => fresh entry (List.mem_cons_of_mem _ member)) finds longer
        have goesOn : ¬cursor.Stops waiting.length picture.forceIdr (flagsOf rest) := by
          rw [Stops, skipped, ← forcedNext_eq]
          exact continues
        rw [not_or, not_or] at continues
        refine ⟨?_, ?_, ?_⟩
        · rw [flagsOf_cons, script_of_continues goesOn, List.length_cons, List.range'_succ]
          refine follows.trans ?_
          rw [List.append_assoc]
          rfl
        · simp only [List.mem_cons, forall_eq_or_imp]
          exact ⟨by simpa using continues.1, unforced⟩
        · rw [counted, List.length_cons, Nat.add_assoc, Nat.add_comm 1]

theorem turns_of_found {front back : List (Handle × Picture ι)} {handle : Handle}
    {picture : Picture ι} {start : Option Handle} {between : List Handle}
    (fresh : ∀ entry ∈ front ++ (handle, picture) :: back, entry.2.issued = false)
    (finds : Scheduler.findAnchor cursor.gop { start } (front ++ (handle, picture) :: back) =
      ({ start, between, skipped := front.length }, some handle)) (ended : Bool) :
    cursor.Turns (flagsOf (front ++ (handle, picture) :: back)) ended front.length
      picture.forceIdr := by
  obtain ⟨before, anchor, rest, split, foundEq, follows⟩ :=
    @script_of_anchor cursor [] _ _ _ _ _ fresh finds rfl
  have sized : front.length = before.length := by
    simpa using congrArg Scheduler.Group.skipped foundEq
  obtain ⟨rfl, same⟩ := List.append_inj split sized
  cases same
  intro future _
  have dropped : (flagsOf (front ++ (handle, picture) :: back)).drop (front.length + 1) =
      flagsOf back := by
    rw [flagsOf, flagsOf, ← List.map_drop, ← List.drop_drop, List.drop_left, List.drop_one,
      List.tail_cons]
  rw [dropped]
  exact follows future

theorem turns_of_closed {front : List (Handle × Picture ι)} {handle : Handle}
    {picture : Picture ι} {start : Option Handle} {group : Scheduler.Group}
    (fresh : ∀ entry ∈ front ++ [(handle, picture)], entry.2.issued = false)
    (finds : Scheduler.findAnchor cursor.gop { start } (front ++ [(handle, picture)]) =
      (group, none)) :
    cursor.Turns (flagsOf (front ++ [(handle, picture)])) true front.length picture.forceIdr := by
  obtain ⟨follows, unforced, _⟩ := @script_of_no_anchor cursor [] _ _ _ _ fresh finds rfl
  intro future ended
  have sized : (flagsOf (front ++ [(handle, picture)])).length = front.length + 1 := by
    simp [flagsOf]
  have plain : picture.forceIdr = false := unforced (handle, picture) (by simp)
  rw [ended rfl, List.append_nil, follows, ← sized, List.drop_length, List.append_nil, plain,
    List.nil_append, List.length_append, List.length_singleton, List.range'_concat, Nat.one_mul]
  simp [script]

end

end Cursor

end VideoSchedule

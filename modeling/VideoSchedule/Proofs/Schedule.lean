import VideoSchedule.Proofs.Arrangement

/-!
The choice of the next picture. Unissued B-pictures come first, and the least deep one of them is
always ready; otherwise the next anchor is taken together with the group before it. Either way the
picture found can be issued and leaves the window arranged.
-/

namespace VideoSchedule

open VideoSchedule.Action

namespace Scheduler

open Window

variable {ι : Type} {scheduler : Scheduler} {window : Window ι} {laid fresh : List Handle}

/-! Ready B-pictures. -/

def Waits (window : Window ι) (targets : List Handle) : Prop :=
  ∃ target ∈ targets, ∃ picture, window.find? target = some picture ∧ picture.issued = false

theorem Waits.cons {targets : List Handle} (waits : Waits window targets) (target : Handle) :
    Waits window (target :: targets) := by
  obtain ⟨other, member, facts⟩ := waits
  exact ⟨other, List.mem_cons_of_mem _ member, facts⟩

theorem allIssued_ok (targets : List Handle) (live : ∀ target ∈ targets, target ∈ window.handles) :
    ∃ all, allIssued window targets = .ok all ∧ (all = false → Waits window targets) := by
  induction targets with
  | nil => exact ⟨true, rfl, by simp⟩
  | cons target rest ih =>
      obtain ⟨picture, found⟩ := exists_of_mem_handles (live target (List.mem_cons_self ..))
      obtain ⟨all, checked, missing⟩ :=
        ih fun other member => live other (List.mem_cons_of_mem _ member)
      cases issued : picture.issued with
      | false =>
          refine ⟨false, by simp [allIssued, found, issued], fun _ => ?_⟩
          exact ⟨target, List.mem_cons_self .., picture, found, issued⟩
      | true =>
          exact ⟨all, by simp [allIssued, found, issued, checked],
            fun some => (missing some).cons target⟩

inductive Readied (window : Window ι) (entries : List (Handle × Picture ι)) :
    Option Handle → Prop where
  | ready {handle : Handle} {picture : Picture ι} (member : (handle, picture) ∈ entries)
      (waiting : picture.issued = false) (typed : picture.type = .bidirectional) :
      Readied window entries (some handle)
  | none (blocked : ∀ entry ∈ entries, entry.2.issued = false → entry.2.type = .bidirectional →
      Waits window (entry.2.past ++ entry.2.future)) : Readied window entries none

theorem Readied.cons {entries : List (Handle × Picture ι)} {answer : Option Handle}
    (readied : Readied window entries answer) {entry : Handle × Picture ι}
    (blocked : entry.2.issued = false → entry.2.type = .bidirectional →
      Waits window (entry.2.past ++ entry.2.future)) : Readied window (entry :: entries) answer := by
  cases readied with
  | ready member waiting typed => exact .ready (List.mem_cons_of_mem _ member) waiting typed
  | none others =>
      refine .none fun other member => ?_
      rcases List.mem_cons.mp member with rfl | member
      · exact blocked
      · exact others other member

theorem readyB_ok {entries : List (Handle × Picture ι)}
    (live : ∀ entry ∈ entries, entry.2.issued = false → ∀ target ∈ entry.2.held,
      target ∈ window.handles) :
    ∃ answer, readyB window entries = .ok answer ∧ Readied window entries answer := by
  induction entries with
  | nil => exact ⟨none, rfl, .none (by simp)⟩
  | cons entry rest ih =>
      obtain ⟨handle, picture⟩ := entry
      obtain ⟨answer, searched, readied⟩ :=
        ih fun other member => live other (List.mem_cons_of_mem _ member)
      by_cases passed : picture.issued = true ∨ picture.type ≠ .bidirectional
      · refine ⟨answer, ?_, readied.cons fun waiting typed => ?_⟩
        · simp only [readyB]
          rw [if_pos passed, searched]
        · rcases passed with issued | other
          · rw [waiting] at issued
            cases issued
          · exact absurd typed other
      · obtain ⟨unissued, isB⟩ := not_or.mp passed
        have waiting : picture.issued = false := Bool.eq_false_iff.mpr unissued
        have typed : picture.type = .bidirectional := not_not.mp isB
        obtain ⟨all, checked, missing⟩ :=
          allIssued_ok (picture.past ++ picture.future)
            fun target member => live (handle, picture) (List.mem_cons_self ..) waiting target (by
              rw [List.mem_append] at member
              simp only [Picture.held, List.mem_append]
              tauto)
        cases all with
        | true =>
            refine ⟨some handle, ?_, .ready (List.mem_cons_self ..) waiting typed⟩
            simp only [readyB]
            rw [if_neg passed, checked]
        | false =>
            refine ⟨answer, ?_, readied.cons fun _ _ => missing rfl⟩
            simp only [readyB]
            rw [if_neg passed, checked, searched]

/-- Where no B-picture is ready, every scheduled picture was issued: of those that were not, the least
deep ones would be ready. -/
theorem Arranged.issued_of_none (arranged : scheduler.Arranged window laid fresh)
    (none : ∀ entry ∈ window.entries, entry.2.issued = false → entry.2.type = .bidirectional →
      Waits window (entry.2.past ++ entry.2.future)) :
    ∀ handle ∈ laid, ∃ picture, window.find? handle = some picture ∧ picture.issued = true := by
  have byDepth : ∀ depth, ∀ handle ∈ laid, ∀ picture, window.find? handle = some picture →
      picture.depth = depth → picture.issued = true := by
    intro depth
    -- What a picture waits for is issued or less deep, and then issued all the same.
    induction depth using Nat.strongRecOn with
    | ind depth ih =>
        intro handle member picture found depthEq
        obtain ⟨same, foundSame, scheduled⟩ := arranged.scheduled handle member
        cases find?_unique found foundSame
        cases waiting : picture.issued with
        | true => rfl
        | false =>
            obtain ⟨typed, settled⟩ := scheduled.waits waiting
            obtain ⟨target, needed, named, foundNamed, unissued⟩ :=
              none (handle, picture) (mem_entries_of_find? found) waiting typed
            obtain ⟨other, foundOther, ready⟩ := settled target needed
            cases find?_unique foundNamed foundOther
            rcases ready with issued | ⟨filled, less⟩
            · rw [unissued] at issued
              cases issued
            · have live := mem_handles_of_find? foundNamed
              rw [arranged.handles] at live
              rcases List.mem_append.mp live with isLaid | isFresh
              · have issued := ih named.depth (by omega) target isLaid named foundNamed rfl
                rw [unissued] at issued
                cases issued
              · obtain ⟨other, foundOther, stillFresh⟩ := arranged.unscheduled target isFresh
                cases find?_unique foundNamed foundOther
                exact absurd stillFresh.held filled
  intro handle member
  obtain ⟨picture, found, _⟩ := arranged.scheduled handle member
  exact ⟨picture, found, byDepth picture.depth handle member picture found rfl⟩

/-! The next anchor. -/

theorem findAnchor_issued (gop : Gop) (front rest : List (Handle × Picture ι)) (group : Group)
    (issued : ∀ entry ∈ front, entry.2.issued = true) (empty : group.between = []) :
    findAnchor gop group (front ++ rest) =
      findAnchor gop { group with start := (front.map Prod.fst).getLast?.or group.start } rest := by
  induction front generalizing group with
  | nil => simp
  | cons entry front ih =>
      obtain ⟨handle, picture⟩ := entry
      have here : picture.issued = true := issued (handle, picture) (List.mem_cons_self ..)
      rw [List.cons_append, findAnchor, if_pos here, ih _ (fun entry member =>
        issued entry (List.mem_cons_of_mem _ member)) rfl, List.map_cons]
      have lastEq : (handle :: front.map Prod.fst).getLast?.or group.start =
          (front.map Prod.fst).getLast?.or (some handle) := by
        cases front.map Prod.fst with
        | nil => rfl
        | cons next rest => simp [List.getLast?_cons]
      rw [lastEq]
      simp [empty]

theorem findAnchor_waiting (gop : Gop) (group : Group) (entries : List (Handle × Picture ι))
    (waiting : ∀ entry ∈ entries, entry.2.issued = false) :
    (∃ front handle back, entries.map Prod.fst = front ++ handle :: back ∧
      findAnchor gop group entries = ({ group with
        between := group.between ++ front
        skipped := group.skipped + front.length }, some handle)) ∨
    findAnchor gop group entries = ({ group with
      between := group.between ++ entries.map Prod.fst
      skipped := group.skipped + entries.length }, none) := by
  induction entries generalizing group with
  | nil => exact Or.inr (by simp [findAnchor])
  | cons entry rest ih =>
      obtain ⟨handle, picture⟩ := entry
      have here : picture.issued = false := waiting (handle, picture) (List.mem_cons_self ..)
      rw [findAnchor, if_neg (by simp [here])]
      split
      · exact Or.inl ⟨[], handle, rest.map Prod.fst, by simp, by simp⟩
      · have later := ih { group with
            between := group.between ++ [handle]
            skipped := group.skipped + 1 } fun entry member =>
          waiting entry (List.mem_cons_of_mem _ member)
        refine later.imp ?_ ?_
        · rintro ⟨front, anchor, back, split, found⟩
          refine ⟨handle :: front, anchor, back, by simp [split], ?_⟩
          rw [found]
          simp [Nat.add_assoc, Nat.add_comm 1]
        · intro found
          rw [found]
          simp [Nat.add_assoc, Nat.add_comm 1]

def groupBefore (laid front : List Handle) : Group where
  start := laid.getLast?
  between := front
  skipped := front.length

inductive Anchoring (scheduler : Scheduler) (window : Window ι) (laid fresh : List Handle) :
    Except Pick (Group × Handle) → Prop where
  | found (front : List Handle) (handle : Handle) (back : List Handle)
      (split : fresh = front ++ handle :: back)
      (opens : laid = [] → front = [] ∧ ∃ picture, window.find? handle = some picture ∧
        picture.forceIdr = true) :
      Anchoring scheduler window laid fresh (.ok (groupBefore laid front, handle))
  | needMoreInput (open_ : scheduler.endOfStream = false)
      (few : fresh.length ≤ scheduler.gop.bPerGroup ∨ scheduler.awaitsTimestamps = true) :
      Anchoring scheduler window laid fresh (.error .needMoreInput)
  | pending (ended : scheduler.endOfStream = true) (none : fresh = []) (tail : Handle)
      (picture : Picture ι) (found : window.find? tail = some picture)
      (issued : picture.issued = true) (incomplete : picture.complete = false) :
      Anchoring scheduler window laid fresh (.error .pending)
  | endOfStream (ended : scheduler.endOfStream = true) (none : fresh = []) :
      Anchoring scheduler window laid fresh (.error .endOfStream)

theorem Arranged.split_entries (arranged : scheduler.Arranged window laid fresh) :
    ∃ front back, window.entries = front ++ back ∧ front.map Prod.fst = laid ∧
      back.map Prod.fst = fresh := by
  have handles := arranged.handles
  rw [handles_eq] at handles
  obtain ⟨front, back, entriesEq, frontEq, backEq⟩ := List.map_eq_append_iff.mp handles
  exact ⟨front, back, entriesEq, frontEq, backEq⟩

theorem Arranged.findAnchor_eq (arranged : scheduler.Arranged window laid fresh)
    (issued : ∀ handle ∈ laid, ∃ picture, window.find? handle = some picture ∧
      picture.issued = true) :
    (∃ front handle back, fresh = front ++ handle :: back ∧
      findAnchor scheduler.gop {} window.entries = (groupBefore laid front, some handle) ∧
      (laid = [] → front = [])) ∨
    findAnchor scheduler.gop {} window.entries = (groupBefore laid fresh, none) ∧
      (laid = [] → fresh = []) := by
  obtain ⟨front, back, entriesEq, rfl, rfl⟩ := arranged.split_entries
  have frontIssued : ∀ entry ∈ front, entry.2.issued = true := by
    rintro ⟨handle, picture⟩ member
    obtain ⟨same, found, isIssued⟩ := issued handle (List.mem_map_of_mem member)
    have foundHere : window.find? handle = some picture :=
      find?_of_mem_entries (by simp [entriesEq, member])
    cases find?_unique found foundHere
    exact isIssued
  have backWaiting : ∀ entry ∈ back, entry.2.issued = false := by
    rintro ⟨handle, picture⟩ member
    obtain ⟨same, found, isFresh⟩ := arranged.unscheduled handle (List.mem_map_of_mem member)
    have foundHere : window.find? handle = some picture :=
      find?_of_mem_entries (by simp [entriesEq, member])
    cases find?_unique found foundHere
    exact isFresh.waiting
  rw [entriesEq, findAnchor_issued _ _ _ _ frontIssued rfl]
  by_cases opening : front = [] ∧ back ≠ []
  · obtain ⟨rfl, nonempty⟩ := opening
    obtain ⟨⟨handle, picture⟩, rest, rfl⟩ := List.exists_cons_of_ne_nil nonempty
    obtain ⟨same, found, forced⟩ := (arranged.opening rfl).2.2 handle rfl
    have foundHere : window.find? handle = some picture :=
      find?_of_mem_entries (by simp [entriesEq])
    cases find?_unique found foundHere
    have here : picture.issued = false := backWaiting (handle, picture) (List.mem_cons_self ..)
    refine Or.inl ⟨[], handle, rest.map Prod.fst, rfl, ?_, fun _ => rfl⟩
    rw [findAnchor, if_neg (by simp [here]), if_pos (Or.inl forced)]
    rfl
  · have group := findAnchor_waiting scheduler.gop
      { start := (front.map Prod.fst).getLast?.or none } back backWaiting
    have nothing : front.map Prod.fst = [] → back = [] := by
      intro empty
      by_contra some
      exact opening ⟨List.map_eq_nil_iff.mp empty, some⟩
    refine group.imp ?_ ?_
    · rintro ⟨before, handle, after, split, found⟩
      refine ⟨before, handle, after, split, ?_, ?_⟩
      · rw [found]
        simp [groupBefore]
      · intro empty
        simp [nothing empty] at split
    · intro found
      refine ⟨?_, fun empty => by simp [nothing empty]⟩
      rw [found]
      simp [groupBefore]

/-- At the end of the stream a group that is left never is empty, so its last picture can be taken
out of it. -/
theorem closeStream_skipped {gop : Gop} {entries : List (Handle × Picture ι)} {group : Group}
    {handle : Handle} {picture : Picture ι} (found : findAnchor gop {} entries = (group, none))
    (last : entries.getLast? = some (handle, picture)) (waiting : picture.issued = false) :
    0 < group.skipped := by
  have counted : ∀ (entries : List (Handle × Picture ι)) (start : Group),
      findAnchor gop start entries = (group, none) → start.skipped ≤ group.skipped ∧
        ((∃ entry ∈ entries, entry.2.issued = false) → 0 < group.skipped) := by
    intro entries
    induction entries with
    | nil =>
        intro start same
        cases same
        exact ⟨Nat.le_refl _, by simp⟩
    | cons entry rest ih =>
        obtain ⟨first, current⟩ := entry
        intro start same
        rw [findAnchor] at same
        split at same
        next issued =>
          obtain ⟨more, waits⟩ := ih _ same
          refine ⟨more, ?_⟩
          rintro ⟨entry, member, unissued⟩
          rcases List.mem_cons.mp member with rfl | member
          · exact absurd issued (by simpa using unissued)
          · exact waits ⟨entry, member, unissued⟩
        next =>
          split at same
          · cases same
          · obtain ⟨more, _⟩ := ih _ same
            exact ⟨Nat.le_of_succ_le more, fun _ => Nat.zero_lt_of_lt more⟩
  exact (counted entries {} found).2 ⟨(handle, picture), List.mem_of_getLast? last, waiting⟩

theorem Arranged.closeStream_ok (arranged : scheduler.Arranged window laid fresh)
    (tidy : window.Tidy scheduler.past.recent) (ended : scheduler.endOfStream = true)
    (issued : ∀ handle ∈ laid, ∃ picture, window.find? handle = some picture ∧
      picture.issued = true) (opens : laid = [] → fresh = []) :
    Anchoring scheduler window laid fresh
      (closeStream window.entries (groupBefore laid fresh)) := by
  unfold closeStream
  cases last : window.entries.getLast? with
  | none =>
      have empty : window.handles = [] := by
        rw [handles_eq, List.getLast?_eq_none_iff.mp last, List.map_nil]
      rw [arranged.handles, List.append_eq_nil_iff] at empty
      exact Anchoring.endOfStream ended empty.2
  | some entry =>
      obtain ⟨tail, picture⟩ := entry
      have found := find?_of_mem_entries (List.mem_of_getLast? last)
      have tailEq : (laid ++ fresh).getLast? = some tail := by
        rw [← arranged.handles, handles_eq, List.getLast?_map, last]
        rfl
      rcases List.eq_nil_or_concat fresh with rfl | ⟨front, handle, rfl⟩
      · have isLaid : tail ∈ laid := List.mem_of_getLast? (by simpa using tailEq)
        obtain ⟨same, foundSame, isIssued⟩ := issued tail isLaid
        cases find?_unique found foundSame
        cases complete : picture.complete with
        | true =>
            simp only [complete, if_true]
            exact Anchoring.endOfStream ended rfl
        | false =>
            simp only [complete, Bool.false_eq_true, if_false, isIssued, if_true]
            exact Anchoring.pending ended rfl tail picture found isIssued complete
      · have same : handle = tail := by simpa [← List.append_assoc] using tailEq
        subst same
        obtain ⟨same, foundSame, isFresh⟩ := arranged.unscheduled handle (by simp)
        cases find?_unique found foundSame
        have incomplete := (tidy.consistent handle picture found).incomplete isFresh.waiting
        have groupEq : ({ groupBefore laid (front.concat handle) with
            between := (groupBefore laid (front.concat handle)).between.dropLast
            skipped := (groupBefore laid (front.concat handle)).skipped - 1 } : Group) =
            groupBefore laid front := by
          simp [groupBefore]
        simp only [incomplete, isFresh.waiting, Bool.false_eq_true, if_false]
        rw [groupEq]
        refine Anchoring.found front handle [] (by simp) fun empty => ?_
        simpa using opens empty

theorem findAnchor_few {gop : Gop} {entries : List (Handle × Picture ι)} {start group : Group}
    {anchor : Option Handle} (found : findAnchor gop start entries = (group, anchor))
    (few : start.skipped ≤ gop.bPerGroup) : group.skipped ≤ gop.bPerGroup := by
  induction entries generalizing start with
  | nil =>
      cases found
      exact few
  | cons entry rest ih =>
      obtain ⟨handle, picture⟩ := entry
      rw [findAnchor] at found
      split at found
      next => exact ih found few
      next =>
        split at found
        next =>
          cases found
          exact few
        next continues =>
          rw [not_or, not_or] at continues
          exact ih found (Nat.lt_of_le_of_ne few continues.2.1)

theorem Arranged.count_unissued (arranged : scheduler.Arranged window laid fresh)
    (issued : ∀ handle ∈ laid, ∃ picture, window.find? handle = some picture ∧
      picture.issued = true) :
    window.pictures.countP (fun picture => !picture.issued) = fresh.length := by
  obtain ⟨front, back, entriesEq, rfl, rfl⟩ := arranged.split_entries
  have found : ∀ entry ∈ front ++ back, window.find? entry.1 = some entry.2 :=
    fun entry member => find?_of_mem_entries (by rw [entriesEq]; exact member)
  have none : (front.map Prod.snd).countP (fun picture => !picture.issued) = 0 := by
    refine List.countP_eq_zero.mpr fun picture member => ?_
    obtain ⟨entry, isFront, rfl⟩ := List.mem_map.mp member
    obtain ⟨same, foundSame, isIssued⟩ := issued entry.1 (List.mem_map_of_mem isFront)
    cases find?_unique (found entry (List.mem_append_left _ isFront)) foundSame
    simp [isIssued]
  have all : (back.map Prod.snd).countP (fun picture => !picture.issued) = back.length := by
    have sized : (back.map Prod.snd).length = back.length := List.length_map _
    rw [← sized]
    refine List.countP_eq_length.mpr fun picture member => ?_
    obtain ⟨entry, isBack, rfl⟩ := List.mem_map.mp member
    obtain ⟨same, foundSame, isFresh⟩ := arranged.unscheduled entry.1 (List.mem_map_of_mem isBack)
    cases find?_unique (found entry (List.mem_append_right _ isBack)) foundSame
    simp [isFresh.waiting]
  rw [pictures, entriesEq, List.map_append, List.countP_append, none, all, List.length_map,
    Nat.zero_add]

theorem Arranged.nextAnchor_ok (arranged : scheduler.Arranged window laid fresh)
    (tidy : window.Tidy scheduler.past.recent)
    (issued : ∀ handle ∈ laid, ∃ picture, window.find? handle = some picture ∧
      picture.issued = true) :
    Anchoring scheduler window laid fresh (scheduler.nextAnchor window) := by
  unfold nextAnchor
  rcases arranged.findAnchor_eq issued with
    ⟨front, handle, back, split, found, opens⟩ | ⟨found, opens⟩
  · have anchoring : Anchoring scheduler window laid fresh
        (.ok (groupBefore laid front, handle)) := by
      refine Anchoring.found front handle back split fun empty => ⟨opens empty, ?_⟩
      exact (arranged.opening empty).2.2 handle (by simp [split, opens empty])
    simp only [found]
    split
    next held => exact Anchoring.needMoreInput held.2 (Or.inr held.1)
    next => exact anchoring
  · have few : fresh.length ≤ scheduler.gop.bPerGroup := findAnchor_few found (Nat.zero_le _)
    simp only [found]
    cases ended : scheduler.endOfStream with
    | false =>
        simp only [Bool.false_eq_true, if_false]
        exact Anchoring.needMoreInput ended (Or.inl few)
    | true =>
        simp only [if_true]
        have closing := arranged.closeStream_ok tidy ended issued opens
        cases close : closeStream window.entries (groupBefore laid fresh) with
        | error pick =>
            rw [close] at closing
            exact closing
        | ok result =>
            rw [close] at closing
            simpa using closing

end Scheduler

end VideoSchedule

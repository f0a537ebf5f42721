import VideoSchedule.Proofs.WindowScript

/-!
The next picture of a script. Of the pictures that wait, the first one that is ready is the next one
of the script; if none waits, it is the anchor that the search comes to.
-/

namespace VideoSchedule

open VideoSchedule.Action Window

variable {ι : Type} {scheduler other : Scheduler} {window before after : Window ι}
  {origin : Cursor} {cues : List Bool} {done : List Outline} {next : Nat}
  {laid fresh : List Handle} {due rest : List (Mark Handle)} {mark : Mark Handle} {handle : Handle}

structure Picture.Outlined (window : Window ι) (handle : Handle) (picture : Picture ι)
    (outline : Outline) : Prop where
  displayOrder : picture.displayOrder = outline.displayOrder
  type : picture.type = outline.type
  depth : picture.depth = outline.depth
  isReference : picture.isReference = outline.isReference
  past : (picture.past.filter (· ≠ handle)).map window.orderOf = outline.past
  future : (picture.future.filter (· ≠ handle)).map window.orderOf = outline.future
  dpb : (picture.dpb.filter (· ≠ handle)).map window.orderOf = outline.dpb

def Picture.Follows (picture : Picture ι) (window : Window ι) (done : List Outline) : Prop :=
  if picture.type = .idr then picture.previous = none
  else ∃ current ∈ window.handles, picture.previous = some current ∧
    Outline.latest done = some (window.orderOf current)

theorem filter_apart {names : List Handle} (apart : handle ∉ names) :
    names.filter (· ≠ handle) = names := by
  refine List.filter_eq_self.mpr fun name member => ?_
  simpa using fun same : name = handle => apart (same ▸ member)

theorem Mark.Describes.outlined {mark : Mark Handle} {picture : Picture ι}
    (describes : mark.Describes picture) (found : window.find? mark.picture = some picture)
    (apart : mark.picture ∉ mark.needs) :
    picture.Outlined window mark.picture (window.told mark) := by
  have kept : picture.dpb.filter (· ≠ mark.picture) = mark.needs := by
    rw [describes.dpb, List.filter_append, filter_apart apart]
    cases mark.isReference <;> simp
  rw [Mark.needs, List.mem_cons, List.mem_cons, not_or, not_or] at apart
  constructor
  case displayOrder => exact (orderOf_of_find? found).symm
  case type => exact describes.type
  case depth => exact describes.depth
  case isReference => exact describes.isReference
  case past =>
    rw [describes.past, filter_apart (by simpa using apart.1)]
    rfl
  case future =>
    rw [describes.future, filter_apart (by simpa using apart.2.1)]
    rfl
  case dpb =>
    rw [kept]
    rfl

theorem Scheduler.allIssued_eq_true {targets : List Handle}
    (issued : ∀ target ∈ targets, ∃ picture, window.find? target = some picture ∧
      picture.issued = true) : Scheduler.allIssued window targets = .ok true := by
  induction targets with
  | nil => rfl
  | cons target rest ih =>
      obtain ⟨picture, found, isIssued⟩ := issued target (List.mem_cons_self ..)
      rw [Scheduler.allIssued, found]
      simp only [isIssued, if_true]
      exact ih fun other member => issued other (List.mem_cons_of_mem _ member)

theorem Scheduler.allIssued_eq_false {targets : List Handle}
    (live : ∀ target ∈ targets, target ∈ window.handles)
    (waits : Scheduler.Waits window targets) : Scheduler.allIssued window targets = .ok false := by
  induction targets with
  | nil =>
      obtain ⟨_, member, _⟩ := waits
      cases member
  | cons target rest ih =>
      obtain ⟨picture, found⟩ := exists_of_mem_handles (live target (List.mem_cons_self ..))
      rw [Scheduler.allIssued, found]
      cases issued : picture.issued with
      | false => simp [issued]
      | true =>
          simp only [issued, if_true]
          refine ih (fun other member => live other (List.mem_cons_of_mem _ member)) ?_
          obtain ⟨other, member, named, foundNamed, unissued⟩ := waits
          rcases List.mem_cons.mp member with rfl | later
          · cases find?_unique found foundNamed
            rw [issued] at unissued
            cases unissued
          · exact ⟨other, later, named, foundNamed, unissued⟩

theorem Scheduler.readyB_eq_some {front back : List (Handle × Picture ι)} {picture : Picture ι}
    (passed : ∀ entry ∈ front, entry.2.issued = true ∨ entry.2.type ≠ .bidirectional ∨
      Scheduler.allIssued window (entry.2.past ++ entry.2.future) = .ok false)
    (waiting : picture.issued = false) (typed : picture.type = .bidirectional)
    (ready : Scheduler.allIssued window (picture.past ++ picture.future) = .ok true) :
    Scheduler.readyB window (front ++ (handle, picture) :: back) = .ok (some handle) := by
  induction front with
  | nil =>
      rw [List.nil_append, Scheduler.readyB, if_neg (by simp [waiting, typed]), ready]
  | cons entry rest ih =>
      have later := ih fun other member => passed other (List.mem_cons_of_mem _ member)
      obtain ⟨key, other⟩ := entry
      rw [List.cons_append, Scheduler.readyB]
      split
      · exact later
      next unissued =>
        rw [not_or, not_not] at unissued
        have blocked := ((passed (key, other) (List.mem_cons_self ..)).resolve_left
          unissued.1).resolve_left (absurd unissued.2)
        rw [blocked]
        exact later

theorem Scheduler.closeStream_skipped_eq {entries : List (Handle × Picture ι)}
    {left group : Scheduler.Group}
    (closed : Scheduler.closeStream entries left = .ok (group, handle)) :
    group.skipped = left.skipped - 1 := by
  rw [Scheduler.closeStream] at closed
  split at closed
  next => cases closed
  next =>
    split at closed
    next => cases closed
    next =>
      split at closed
      next => cases closed
      next =>
        cases closed
        rfl

theorem Scheduler.late_of_nextAnchor {result : Scheduler.Group × Handle}
    (chosen : scheduler.nextAnchor window = .ok result) :
    scheduler.awaitsTimestamps = false ∨ scheduler.endOfStream = true := by
  by_contra early
  rw [not_or, Bool.not_eq_false, Bool.not_eq_true] at early
  simp only [Scheduler.nextAnchor, early, and_self, if_true] at chosen
  split at chosen <;> cases chosen

theorem Scheduler.nextAnchor_cases {group : Scheduler.Group}
    (chosen : scheduler.nextAnchor window = .ok (group, handle)) :
    Scheduler.findAnchor scheduler.gop {} window.entries = (group, some handle) ∨
      scheduler.endOfStream = true ∧ ∃ left,
        Scheduler.findAnchor scheduler.gop {} window.entries = (left, none) ∧
        Scheduler.closeStream window.entries left = .ok (group, handle) := by
  rw [Scheduler.nextAnchor] at chosen
  cases finds : Scheduler.findAnchor scheduler.gop {} window.entries with
  | mk found answer =>
      simp only [finds] at chosen
      cases answer with
      | some anchor =>
          refine Or.inl ?_
          dsimp only at chosen
          split at chosen
          next => cases chosen
          next =>
            cases chosen
            rfl
      | none =>
          cases ended : scheduler.endOfStream with
          | false => simp [ended] at chosen
          | true =>
              refine Or.inr ⟨rfl, found, rfl, ?_⟩
              cases closes : Scheduler.closeStream window.entries found with
              | error pick => simp [ended, closes] at chosen
              | ok result => simpa [ended, closes] using chosen

namespace Plot

theorem due_of_unissued (plot : Plot origin cues done scheduler window next laid fresh due)
    {picture : Picture ι} (found : window.find? handle = some picture)
    (scheduled : ¬picture.Fresh) (unissued : picture.issued = false) :
    handle ∈ due.map Mark.picture := by
  have live := mem_handles_of_find? found
  rw [plot.arranged.handles, List.mem_append] at live
  refine (plot.waits handle (live.resolve_right fun isFresh => ?_) picture found).mp unissued
  obtain ⟨same, foundSame, fresh⟩ := plot.arranged.unscheduled handle isFresh
  cases find?_unique found foundSame
  exact scheduled fresh

theorem waits_of_due (plot : Plot origin cues done scheduler window next laid fresh due)
    {targets : List Handle} {target : Handle} (member : target ∈ targets)
    (waiting : target ∈ due.map Mark.picture) : Scheduler.Waits window targets := by
  obtain ⟨mark, isDue, rfl⟩ := List.mem_map.mp waiting
  obtain ⟨picture, found, _, unissued⟩ := plot.due_unissued isDue
  exact ⟨mark.picture, member, picture, found, unissued⟩

theorem head_ready
    (plot : Plot origin cues done scheduler window next laid fresh (mark :: rest))
    {picture : Picture ι} (found : window.find? mark.picture = some picture) :
    Scheduler.allIssued window (picture.past ++ picture.future) = .ok true := by
  obtain ⟨same, foundSame, describes, unissued⟩ := plot.due_unissued (List.mem_cons_self ..)
  cases find?_unique found foundSame
  obtain ⟨known, foundKnown, scheduled⟩ :=
    plot.arranged.scheduled mark.picture (plot.due_laid (List.mem_cons_self ..))
  cases find?_unique found foundKnown
  obtain ⟨_, settled⟩ := scheduled.waits unissued
  obtain ⟨⟨past, future⟩, _⟩ := plot.emits
  refine Scheduler.allIssued_eq_true fun target member => ?_
  obtain ⟨named, foundNamed, ready⟩ := settled target member
  refine ⟨named, foundNamed, ?_⟩
  by_contra waiting
  have filled := (ready.resolve_left waiting).1
  have isDue := plot.due_of_unissued foundNamed (fun fresh => filled fresh.held)
    (Bool.eq_false_iff.mpr waiting)
  rw [describes.past, describes.future] at member
  simp only [List.cons_append, List.nil_append, List.mem_cons, List.not_mem_nil, or_false] at member
  rcases member with rfl | rfl
  · exact past isDue
  · exact future isDue

theorem head_first
    (plot : Plot origin cues done scheduler window next laid fresh (mark :: rest)) {picture : Picture ι}
    (found : window.find? handle = some picture)
    (earlier : window.orderOf handle < window.orderOf mark.picture)
    (unissued : picture.issued = false) (typed : picture.type = .bidirectional) :
    Scheduler.allIssued window (picture.past ++ picture.future) = .ok false := by
  have isDue := plot.due_of_unissued found (fun fresh => by simp [fresh.type] at typed) unissued
  obtain ⟨later, member, rfl⟩ := List.mem_map.mp isDue
  obtain ⟨same, foundSame, describes⟩ := plot.charted later member
  cases find?_unique found foundSame
  have live := plot.live later member
  refine Scheduler.allIssued_eq_false (fun target named => live target ?_) ?_
  · rw [describes.past, describes.future] at named
    simp only [List.cons_append, List.nil_append, List.mem_cons, List.not_mem_nil, or_false] at named
    rcases named with rfl | rfl <;> simp [Mark.needs]
  · rw [describes.past, describes.future]
    obtain ⟨_, _, waits, _⟩ := plot.emits
    rcases List.mem_cons.mp member with rfl | member
    · exact absurd earlier (Nat.lt_irrefl _)
    · rcases waits later member earlier with past | future
      · exact plot.waits_of_due (by simp) past
      · exact plot.waits_of_due (by simp) future

theorem readyB (plot : Plot origin cues done scheduler window next laid fresh (mark :: rest)) :
    Scheduler.readyB window window.entries = .ok (some mark.picture) := by
  obtain ⟨picture, found, describes, unissued⟩ := plot.due_unissued (List.mem_cons_self ..)
  obtain ⟨front, back, entriesEq⟩ := List.append_of_mem (mem_entries_of_find? found)
  have ordered := plot.arranged.ordered
  rw [handles_eq, entriesEq, List.map_append, List.map_cons] at ordered
  rw [entriesEq]
  refine Scheduler.readyB_eq_some (fun entry member => ?_) unissued describes.type
    (plot.head_ready found)
  have foundEntry : window.find? entry.1 = some entry.2 :=
    find?_of_mem_entries (by simp [entriesEq, member])
  have earlier := (List.pairwise_append.mp ordered).2.2 entry.1 (List.mem_map_of_mem member)
    mark.picture (List.mem_cons_self ..)
  -- what stands before it in the window is issued, no B-picture, or waits for a later one
  by_cases issued : entry.2.issued = true
  · exact Or.inl issued
  by_cases typed : entry.2.type = .bidirectional
  · exact Or.inr (Or.inr (plot.head_first foundEntry earlier.orderOf_lt
      (Bool.eq_false_iff.mpr issued) typed))
  · exact Or.inr (Or.inl typed)

theorem done_of_due
    (plot : Plot origin cues done scheduler window next laid fresh (mark :: rest)) : done ≠ [] := by
  intro nothing
  have isLaid := plot.due_laid (List.mem_cons_self ..)
  rw [plot.begun nothing] at isLaid
  cases isLaid

theorem issue_due
    (plot : Plot origin cues done scheduler window next laid fresh (mark :: rest)) :
    Plot origin cues (done ++ [window.told mark]) scheduler
      (window.adjust mark.picture Picture.issue) next laid fresh rest := by
  have isLaid := plot.due_laid (List.mem_cons_self ..)
  have apart : mark.picture ∉ fresh := fun isFresh =>
    (List.nodup_append.mp plot.arranged.nodup).2.2 _ isLaid _ isFresh rfl
  obtain ⟨_, once, _, emits⟩ := plot.emits
  have ordersEq := orderOf_adjust mark.picture Picture.issue window fun _ => rfl
  have forcedEq : (window.adjust mark.picture Picture.issue).forcedAt = window.forcedAt :=
    forcedAt_adjust mark.picture Picture.issue fun _ => rfl
  have toldEq : (window.adjust mark.picture Picture.issue).told = window.told := by
    funext other
    rw [told, told, ordersEq]
  have cursorEq : scheduler.cursor (window.adjust mark.picture Picture.issue) laid next =
      scheduler.cursor window laid next := by
    rw [Scheduler.cursor, Scheduler.cursor, ordersEq]
  constructor
  case arranged => exact plot.arranged.adjust isLaid apart Picture.continues_issue fun _ => rfl
  case entered => exact plot.entered
  case counted => exact plot.counted
  case numbered =>
    rw [ordersEq]
    exact plot.numbered
  case cued =>
    rw [forcedEq]
    exact plot.cued
  case waits =>
    intro key member current found
    rw [find?_adjust] at found
    split at found
    next same =>
      obtain ⟨picture, _, rfl⟩ := Option.map_eq_some_iff.mp found
      exact ⟨fun waiting => (by cases waiting), fun waiting => absurd (same ▸ waiting) once⟩
    next other =>
      rw [plot.waits key member current found, List.map_cons, List.mem_cons, or_iff_right other]
  case charted =>
    intro later member
    obtain ⟨picture, found, describes⟩ := plot.charted later (List.mem_cons_of_mem _ member)
    by_cases same : later.picture = mark.picture
    · exact absurd (same ▸ List.mem_map_of_mem member) once
    · exact ⟨picture, by rwa [find?_adjust_of_ne same], describes⟩
  case live =>
    rw [handles_adjust]
    exact fun later member => plot.live later (List.mem_cons_of_mem _ member)
  case emits =>
    rw [ordersEq]
    exact emits
  case apart => exact fun later member => plot.apart later (List.mem_cons_of_mem _ member)
  case begun => simp
  case multi => exact plot.multi
  case follows =>
    intro _
    obtain ⟨current, latest, order⟩ := plot.follows plot.done_of_due
    have trailed := latest.trailed.2.adjust mark.picture
      (fun _ => rfl : ∀ picture, (Picture.issue picture).previous = picture.previous)
    refine ⟨if mark.isReference then mark.picture else current, ⟨?_, trailed, latest.last⟩, ?_⟩
    · rw [handles_adjust]
      split
      · exact plot.live mark (List.mem_cons_self ..) _ (List.mem_cons_self ..)
      · exact latest.live
    · rw [Outline.latest_concat, ordersEq, order]
      cases reference : mark.isReference <;> simp [told, Mark.map, Mark.outline, reference]
  case script =>
    intro future ended
    rw [plot.script future ended, toldEq, cursorEq, List.map_cons, List.append_cons]

/-! The next anchor. -/

theorem issued (plot : Plot origin cues done scheduler window next laid fresh []) :
    ∀ handle ∈ laid, ∃ picture, window.find? handle = some picture ∧ picture.issued = true := by
  intro handle member
  obtain ⟨picture, found, _⟩ := plot.arranged.scheduled handle member
  refine ⟨picture, found, ?_⟩
  by_contra waiting
  have isDue := (plot.waits handle member picture found).mp (Bool.eq_false_iff.mpr waiting)
  cases isDue

theorem flagsOf_fresh (plot : Plot origin cues done scheduler window next laid fresh due)
    {front back : List (Handle × Picture ι)}
    (entriesEq : window.entries = front ++ back) (freshEq : back.map Prod.fst = fresh) :
    Cursor.flagsOf back = cues.drop next := by
  rw [← plot.cued, ← freshEq, List.map_map, Cursor.flagsOf]
  refine List.map_congr_left fun entry member => ?_
  have found : window.find? entry.1 = some entry.2 :=
    find?_of_mem_entries (by simp [entriesEq, member])
  rw [Function.comp_apply, forcedAt, found, Option.map_some, Option.getD_some]

theorem unissued_fresh (plot : Plot origin cues done scheduler window next laid fresh due)
    {front back : List (Handle × Picture ι)}
    (entriesEq : window.entries = front ++ back) (freshEq : back.map Prod.fst = fresh) :
    ∀ entry ∈ back, entry.2.issued = false := by
  intro entry member
  have found : window.find? entry.1 = some entry.2 :=
    find?_of_mem_entries (by simp [entriesEq, member])
  obtain ⟨same, foundSame, isFresh⟩ :=
    plot.arranged.unscheduled entry.1 (by rw [← freshEq]; exact List.mem_map_of_mem member)
  cases find?_unique found foundSame
  exact isFresh.waiting

theorem findAnchor_eq (plot : Plot origin cues done scheduler window next laid fresh [])
    {front back : List (Handle × Picture ι)}
    (entriesEq : window.entries = front ++ back) (laidEq : front.map Prod.fst = laid) :
    Scheduler.findAnchor scheduler.gop {} window.entries =
      Scheduler.findAnchor scheduler.gop { start := laid.getLast? } back := by
  have issued : ∀ entry ∈ front, entry.2.issued = true := by
    intro entry member
    have found : window.find? entry.1 = some entry.2 :=
      find?_of_mem_entries (by simp [entriesEq, member])
    obtain ⟨same, foundSame, isIssued⟩ :=
      plot.issued entry.1 (by rw [← laidEq]; exact List.mem_map_of_mem member)
    cases find?_unique found foundSame
    exact isIssued
  rw [entriesEq, Scheduler.findAnchor_issued _ _ _ _ issued rfl, laidEq, Option.or_none]

theorem turns (plot : Plot origin cues done scheduler window next laid fresh [])
    (tidy : window.Tidy scheduler.past.recent) {group : Scheduler.Group}
    (chosen : scheduler.nextAnchor window = .ok (group, handle)) :
    ∃ front back picture, fresh = front ++ handle :: back ∧
      group = Scheduler.groupBefore laid front ∧
      (laid = [] → front = [] ∧ ∃ picture, window.find? handle = some picture ∧
        picture.forceIdr = true) ∧
      window.find? handle = some picture ∧
      (scheduler.cursor window laid next).Turns (cues.drop next) scheduler.endOfStream front.length
        picture.forceIdr := by
  have anchoring := plot.arranged.nextAnchor_ok tidy plot.issued
  rw [chosen] at anchoring
  cases anchoring with
  | found front handle back split opens =>
      obtain ⟨before, entries, entriesEq, laidEq, freshEq⟩ := plot.arranged.split_entries
      have waiting := plot.unissued_fresh entriesEq freshEq
      have flagsEq := plot.flagsOf_fresh entriesEq freshEq
      obtain ⟨frontEntries, rest, entriesSplit, frontEq, restEq⟩ :=
        List.map_eq_append_iff.mp (freshEq.trans split)
      obtain ⟨⟨_, picture⟩, backEntries, rfl, rfl, backEq⟩ := List.map_eq_cons_iff.mp restEq
      refine ⟨front, back, picture, split, rfl, opens, find?_of_mem_entries
        (by simp [entriesEq, entriesSplit]), ?_⟩
      subst entriesSplit
      have searchEq := plot.findAnchor_eq entriesEq laidEq
      have sized : front.length = frontEntries.length := by rw [← frontEq, List.length_map]
      rw [← flagsEq, sized]
      rcases Scheduler.nextAnchor_cases chosen with finds | ⟨ended, left, finds, closes⟩
      · rw [searchEq, Scheduler.groupBefore, sized] at finds
        exact Cursor.turns_of_found waiting finds _
      · rw [searchEq] at finds
        -- at the end of a stream the last picture is the anchor, so nothing is behind it
        have one : backEntries = [] := by
          have skipped := Scheduler.closeStream_skipped_eq closes
          obtain ⟨_, _, counted⟩ := @Cursor.script_of_no_anchor
            (scheduler.cursor window laid next) [] _ _ _ _ waiting finds rfl
          rw [counted] at skipped
          simp only [Scheduler.groupBefore, sized, List.length_append, List.length_cons] at skipped
          exact List.length_eq_zero_iff.mp (by omega)
        subst one
        rw [ended]
        exact Cursor.turns_of_closed waiting finds

section Anchor

variable {front back : List Handle} {forced : Bool}

theorem orders_split
    (plot : Plot origin cues done scheduler window next laid (front ++ handle :: back) due) :
    front.map window.orderOf = List.range' next front.length ∧
      window.orderOf handle = next + front.length ∧
      back.map window.orderOf = List.range' (next + (front.length + 1)) back.length := by
  have numbered := plot.numbered
  rw [List.map_append, List.map_cons, List.length_append, List.length_cons, ← List.range'_append_1,
    List.range'_succ] at numbered
  obtain ⟨frontEq, rest⟩ := List.append_inj numbered (by simp)
  obtain ⟨orderEq, backEq⟩ := List.cons.inj rest
  exact ⟨frontEq, orderEq, backEq⟩

theorem orders_marks
    (plot : Plot origin cues done scheduler window next laid (front ++ handle :: back) due) :
    (Hierarchy.groupMarks scheduler.gop.maxBDepth laid.getLast? front handle).map
        (Mark.map window.orderOf) =
      (scheduler.cursor window laid next).marks (List.range' next front.length)
        (next + front.length) := by
  obtain ⟨frontOrders, handleOrder, _⟩ := plot.orders_split
  rw [Hierarchy.groupMarks_map, frontOrders, handleOrder]
  rfl

theorem cursor_pass
    (plot : Plot origin cues done scheduler window next laid (front ++ handle :: back) due)
    (groups : Scheduler.Groups scheduler window laid.getLast? front handle forced other after)
    (orders : before.orderOf = window.orderOf) :
    other.cursor before (laid ++ (front ++ [handle])) (next + (front.length + 1)) =
      (scheduler.cursor window laid next).pass (List.range' next front.length)
        (next + front.length) forced := by
  have marksEq := plot.orders_marks
  obtain ⟨_, handleOrder, _⟩ := plot.orders_split
  have nextEq : next + (front.length + 1) = window.orderOf handle + 1 := by omega
  rw [nextEq, Scheduler.cursor, Cursor.pass, ← marksEq, ← handleOrder, Mark.last_map,
    Hierarchy.lastType_map, groups.gop, groups.recent, orders, List.map_append,
    ← PastPictures.room_map]
  simp [Scheduler.cursor, Cursor.type]

theorem ordered_group
    (plot : Plot origin cues done scheduler window next laid (front ++ handle :: back) due) :
    (laid.getLast?.toList ++ (front ++ [handle])).Pairwise fun first second =>
      window.orderOf first < window.orderOf second := by
  have ordered := plot.arranged.ordered
  rw [plot.arranged.handles] at ordered
  have start : laid.getLast?.toList.Sublist laid := by
    cases lastEq : laid.getLast? with
    | none => simp
    | some last =>
        rw [Option.toList_some, List.singleton_sublist]
        exact List.mem_of_getLast? lastEq
  refine (ordered.sublist (start.append ?_)).imp Window.Before.orderOf_lt
  exact (List.Sublist.refl front).append (by simp)

theorem waits_anchor
    (plot : Plot origin cues done scheduler window next laid (front ++ handle :: back) [])
    (rewrites : Window.Rewrites (front ++ [handle]) window after) {key : Handle}
    (member : key ∈ laid ++ (front ++ [handle])) {current : Picture ι}
    (found : (after.adjust handle Picture.issue).find? key = some current) :
    current.issued = false ↔ key ∈ front := by
  rw [find?_adjust] at found
  split at found
  next same =>
    obtain ⟨picture, _, rfl⟩ := Option.map_eq_some_iff.mp found
    refine iff_of_false (by simp [Picture.issue]) ?_
    rw [same]
    exact plot.arranged.front_apart
  next different =>
    obtain ⟨old, foundOld, same⟩ := rewrites.find?_origin found
    have issuedEq : current.issued = old.issued := (congrArg Picture.issued same :)
    rw [issuedEq]
    rcases List.mem_append.mp member with isLaid | inGroup
    · obtain ⟨known, foundKnown, issued⟩ := plot.issued key isLaid
      cases find?_unique foundOld foundKnown
      refine iff_of_false (by simp [issued]) fun inFront => ?_
      exact plot.arranged.laid_apart isLaid (List.mem_append_left _ inFront)
    · have inFront : key ∈ front := by simpa [different] using inGroup
      obtain ⟨known, foundKnown, fresh⟩ := plot.arranged.unscheduled key (by simp [inFront])
      cases find?_unique foundOld foundKnown
      exact iff_of_true fresh.waiting inFront

theorem live_anchor
    (plot : Plot origin cues done scheduler window next laid (front ++ handle :: back) [])
    (groups : Scheduler.Groups scheduler window laid.getLast? front handle forced other after)
    (tidy : after.Tidy other.past.recent) :
    ∀ mark ∈ Hierarchy.groupMarks scheduler.gop.maxBDepth laid.getLast? front handle,
      ∀ name ∈ mark.picture :: mark.needs, name ∈ after.handles := by
  intro mark member name named
  obtain ⟨picture, found, describes⟩ := groups.charted mark member
  have inFront := Hierarchy.groupMarks_inside _ _ _ _ mark member
  obtain ⟨old, foundOld, same⟩ := groups.rewrites.find?_origin found
  obtain ⟨known, foundKnown, fresh⟩ := plot.arranged.unscheduled mark.picture (by simp [inFront])
  cases find?_unique foundOld foundKnown
  have waiting : picture.issued = false := (congrArg Picture.issued same :).trans fresh.waiting
  rcases List.mem_cons.mp named with rfl | needed
  · exact mem_handles_of_find? found
  · refine tidy.held_live_of_incomplete found ((tidy.consistent _ _ found).incomplete waiting) name ?_
    simp [Picture.held, describes.dpb, needed]

theorem issue_anchor
    (plot : Plot origin cues done scheduler window next laid (front ++ handle :: back) [])
    (opens : laid = [] → front = [])
    (turns : (scheduler.cursor window laid next).Turns (cues.drop next) scheduler.endOfStream
      front.length forced)
    (schedules : Scheduler.Schedules scheduler window other after)
    (groups : Scheduler.Groups scheduler window laid.getLast? front handle forced other after)
    (arranged : other.Arranged (after.adjust handle Picture.issue) (laid ++ (front ++ [handle])) back)
    (tidy : after.Tidy other.past.recent) :
    Plot origin cues
      (done ++ [(scheduler.cursor window laid next).top (List.range' next front.length)
        (next + front.length) forced])
      other (after.adjust handle Picture.issue) (next + (front.length + 1))
      (laid ++ (front ++ [handle])) back
      (Hierarchy.groupMarks scheduler.gop.maxBDepth laid.getLast? front handle) := by
  have ordersEq : (after.adjust handle Picture.issue).orderOf = window.orderOf :=
    (orderOf_adjust handle Picture.issue after fun _ => rfl).trans groups.rewrites.orderOf
  have forcedEq : (after.adjust handle Picture.issue).forcedAt = window.forcedAt :=
    (forcedAt_adjust handle Picture.issue fun _ => rfl).trans groups.rewrites.forcedAt
  have ordered := plot.ordered_group
  have apart := plot.arranged.front_apart
  constructor
  case arranged => exact arranged
  case entered => exact schedules.inputOrder.trans plot.entered
  case counted =>
    have counted := plot.counted
    rw [List.length_append, List.length_cons] at counted
    omega
  case numbered =>
    rw [ordersEq]
    exact plot.orders_split.2.2
  case cued =>
    rw [forcedEq, ← List.drop_drop, ← plot.cued, ← List.map_drop, ← List.drop_drop, List.drop_left,
      List.drop_one, List.tail_cons]
  case waits =>
    intro key member current found
    rw [(Hierarchy.pictures_groupMarks handle
      (fun none => opens (List.getLast?_eq_none_iff.mp none)) _).mem_iff]
    exact plot.waits_anchor groups.rewrites member found
  case charted =>
    intro mark member
    obtain ⟨picture, found, describes⟩ := groups.charted mark member
    have inside := Hierarchy.groupMarks_inside _ _ _ _ mark member
    refine ⟨picture, ?_, describes⟩
    rwa [find?_adjust_of_ne]
    rintro same
    rw [same] at inside
    exact apart inside
  case live =>
    rw [handles_adjust]
    exact plot.live_anchor groups tidy
  case emits =>
    rw [ordersEq]
    exact Hierarchy.emits_groupMarks ordered _
  case apart =>
    refine Hierarchy.groupMarks_apart ?_ ?_ _
    · exact (List.nodup_append.mp (List.nodup_append.mp plot.arranged.nodup).2.1).1
    · intro name member inFront
      rcases List.mem_cons.mp member with rfl | isStart
      · exact apart inFront
      · have isLaid := List.mem_of_getLast? (Option.mem_toList.mp isStart)
        exact plot.arranged.laid_apart isLaid (List.mem_append_left _ inFront)
  case begun => simp
  case multi => rw [groups.multiReference, plot.multi, groups.gop, Cursor.nextTop_multiReference]
  case follows =>
    intro _
    obtain ⟨anchor, found, _⟩ := groups.anchor
    refine ⟨handle, ⟨?_, groups.trailed.adjust handle fun _ => rfl, ?_⟩, ?_⟩
    · rw [handles_adjust]
      exact mem_handles_of_find? found
    · rw [groups.recent, List.getLast?_append_cons, List.getLast?_singleton]
    · rw [Outline.latest_concat, ordersEq, plot.orders_split.2.1]
      rfl
  case script =>
    intro future ended
    rw [schedules.endOfStream] at ended
    have toldEq : (Hierarchy.groupMarks scheduler.gop.maxBDepth laid.getLast? front handle).map
        (after.adjust handle Picture.issue).told =
        ((scheduler.cursor window laid next).marks (List.range' next front.length)
          (next + front.length)).map Mark.outline := by
      rw [← plot.orders_marks, List.map_map, ← ordersEq]
      rfl
    rw [plot.script future ended, turns future ended, toldEq, plot.cursor_pass groups ordersEq,
      Cursor.group, List.drop_drop]
    simp [Scheduler.cursor]

theorem targets_eq (plot : Plot origin cues done scheduler window next laid fresh due)
    (order : window.orderOf handle = next + front.length) :
    scheduler.past.aims window handle laid.getLast? =
      (scheduler.cursor window laid next).targets (next + front.length) := by
  rw [PastPictures.aims, Cursor.targets, plot.multi, order]
  simp only [Scheduler.cursor]
  cases laid.getLast? <;> rfl

theorem outlined_anchor
    (plot : Plot origin cues done scheduler window next laid (front ++ handle :: back) [])
    (groups : Scheduler.Groups scheduler window laid.getLast? front handle forced other after) :
    ∃ picture, after.find? handle = some picture ∧ picture.Outlined after handle
      ((scheduler.cursor window laid next).top (List.range' next front.length)
        (next + front.length) forced) := by
  obtain ⟨anchor, found, typed, top, reference, noFuture, predicts⟩ := groups.anchor
  obtain ⟨kept, dpbEq, keptApart, keptOrders⟩ := predicts.dpb
  obtain ⟨_, order, _⟩ := plot.orders_split
  have targets := plot.targets_eq order
  have typeEq : anchor.type =
      (scheduler.cursor window laid next).type (List.range' next front.length) forced := by
    rw [typed, Cursor.type, List.length_range']
    rfl
  have ordersEq := groups.rewrites.orderOf
  refine ⟨anchor, found, ?_, typeEq, top, reference, ?_, ?_, ?_⟩
  · rw [← orderOf_of_find? found, ordersEq, order]
    rfl
  · rw [filter_apart predicts.apart, ordersEq, predicts.references, targets, typeEq]
    rfl
  · rw [noFuture]
    rfl
  · have keptEq : anchor.dpb.filter (· ≠ handle) = kept := by
      rw [dpbEq, List.filter_cons_of_neg (by simp), filter_apart keptApart]
    rw [keptEq, ordersEq, keptOrders, targets, typeEq]
    simp only [Cursor.top, List.range'_eq_nil_iff]

end Anchor

theorem follows_due
    (plot : Plot origin cues done scheduler window next laid fresh (mark :: rest))
    {picture : Picture ι} (found : window.find? mark.picture = some picture)
    (describes : mark.Describes picture) : picture.Follows window done := by
  obtain ⟨current, latest, order⟩ := plot.follows plot.done_of_due
  obtain ⟨⟨same, foundSame, follows⟩, _⟩ := latest.trailed
  cases find?_unique found foundSame
  rw [Picture.Follows, if_neg (by simp [describes.type])]
  exact ⟨current, latest.live, follows, order⟩

theorem follows_anchor {front back : List Handle} {forced : Bool}
    (plot : Plot origin cues done scheduler window next laid (front ++ handle :: back) [])
    (opens : laid = [] → forced = true)
    (groups : Scheduler.Groups scheduler window laid.getLast? front handle forced other after)
    {anchor : Picture ι} (found : after.find? handle = some anchor) : anchor.Follows after done := by
  obtain ⟨same, foundSame, typed, _, _, _, predicts⟩ := groups.anchor
  cases find?_unique found foundSame
  have previous := predicts.previous
  rw [Picture.Follows]
  split
  next idr => rwa [if_pos idr] at previous
  next other =>
    rw [if_neg other] at previous
    -- a stream begins with an IDR picture
    have went : done ≠ [] := by
      intro nothing
      rw [opens (plot.begun nothing)] at typed
      exact other typed
    obtain ⟨current, latest, order⟩ := plot.follows went
    refine ⟨current, ?_, previous.trans latest.last, ?_⟩
    · rw [groups.rewrites.handles]
      exact latest.live
    · rw [groups.rewrites.orderOf]
      exact order

theorem readyB_none (plot : Plot origin cues done scheduler window next laid fresh [])
    (tidy : window.Tidy scheduler.past.recent) :
    Scheduler.readyB window window.entries = .ok none := by
  have found : ∀ entry ∈ window.entries, window.find? entry.1 = some entry.2 :=
    fun entry member => find?_of_mem_entries member
  have live : ∀ entry ∈ window.entries, entry.2.issued = false → ∀ target ∈ entry.2.held,
      target ∈ window.handles := fun entry member waiting => tidy.held_live_of_incomplete
    (found entry member) ((tidy.consistent _ _ (found entry member)).incomplete waiting)
  obtain ⟨answer, searched, readied⟩ := Scheduler.readyB_ok live
  cases readied with
  | none blocked => exact searched
  | ready member waiting typed =>
      have isDue := plot.due_of_unissued (found _ member)
        (fun fresh => by cases fresh.type.symm.trans typed) waiting
      cases isDue

theorem takes_anchor (plot : Plot origin cues done scheduler window next laid fresh [])
    (tidy : window.Tidy scheduler.past.recent)
    (runs : Runs Scheduler.pickNext (scheduler, window) (.ok (.picture handle)) (other, after)) :
    ∃ group, scheduler.nextAnchor window = .ok (group, handle) ∧
      Runs (Scheduler.takeAnchor group handle) (scheduler, window) (.ok ()) (other, after) := by
  have taking : ∀ {pick : Pick} {left : Scheduler × Window ι},
      Runs (Scheduler.takeNextAnchor (scheduler.nextAnchor window)) (scheduler, window)
        (.ok pick) left → pick = .picture handle ∧ left = (other, after) := by
    intro pick left taken
    have here := Scheduler.pickNext_runs (plot.readyB_none tidy) taken
    exact ⟨by cases here.result_eq.symm.trans runs.result_eq; rfl,
      here.state_eq.symm.trans runs.state_eq⟩
  have anchoring := plot.arranged.nextAnchor_ok tidy plot.issued
  generalize chosenEq : scheduler.nextAnchor window = chosen at anchoring taking
  cases chosen with
  | error pick =>
      obtain ⟨rfl, _⟩ := taking (runs_pure _ _)
      cases anchoring
  | ok choice =>
      obtain ⟨group, anchor⟩ := choice
      obtain ⟨front, back, picture, rfl, rfl, opens, found, turns⟩ := plot.turns tidy chosenEq
      obtain ⟨_, _, taken, _⟩ :=
        Scheduler.takeAnchor_ok plot.arranged tidy plot.issued opens found
      obtain ⟨same, left⟩ := taking (taken.bind (runs_pure _ _))
      cases same
      cases left
      exact ⟨_, rfl, taken⟩

/-- How the next picture of a plot is picked: it is the first one that waits, or the anchor of the
next group, which is laid out then. -/
inductive Chooses (cues : List Bool) (scheduler : Scheduler) (window : Window ι) (next : Nat)
    (laid : List Handle) :
    List Handle → List (Mark Handle) → Handle → Scheduler → Window ι → Prop where
  | due {fresh : List Handle} {mark : Mark Handle} {rest : List (Mark Handle)}
      {picture : Picture ι} (found : window.find? mark.picture = some picture)
      (describes : mark.Describes picture) :
      Chooses cues scheduler window next laid fresh (mark :: rest) mark.picture scheduler window
  | anchor {front back : List Handle} {handle : Handle} {forced : Bool} {other : Scheduler}
      {after : Window ι} (opens : laid = [] → front = [] ∧ forced = true)
      (turns : (scheduler.cursor window laid next).Turns (cues.drop next) scheduler.endOfStream
        front.length forced)
      (schedules : Scheduler.Schedules scheduler window other after)
      (tidy : after.Tidy other.past.recent)
      (groups : Scheduler.Groups scheduler window laid.getLast? front handle forced other after)
      (arranged : other.Arranged (after.adjust handle Picture.issue) (laid ++ (front ++ [handle]))
        back) :
      Chooses cues scheduler window next laid (front ++ handle :: back) [] handle other after

theorem chooses (plot : Plot origin cues done scheduler window next laid fresh due)
    (tidy : window.Tidy scheduler.past.recent)
    (runs : Runs Scheduler.pickNext (scheduler, window) (.ok (.picture handle)) (other, after)) :
    Chooses cues scheduler window next laid fresh due handle other after := by
  cases due with
  | cons mark rest =>
      have here : Runs Scheduler.pickNext (scheduler, window) (.ok (.picture mark.picture))
          (scheduler, window) :=
        (runs_get _).bind ((runs_ofExcept_ok (plot.readyB) _).bind (runs_pure _ _))
      cases here.result_eq.symm.trans runs.result_eq
      cases here.state_eq.symm.trans runs.state_eq
      obtain ⟨picture, found, describes⟩ := plot.charted mark (List.mem_cons_self ..)
      exact .due found describes
  | nil =>
      obtain ⟨group, chosen, taking⟩ := plot.takes_anchor tidy runs
      obtain ⟨front, back, picture, rfl, rfl, opens, found, turns⟩ := plot.turns tidy chosen
      obtain ⟨_, _, taken, schedules, pickable, groups, arranged⟩ :=
        Scheduler.takeAnchor_ok plot.arranged tidy plot.issued opens found
      cases taken.state_eq.symm.trans taking.state_eq
      refine .anchor (fun empty => ?_) turns schedules pickable.tidy groups arranged
      obtain ⟨nothing, first, foundFirst, forced⟩ := opens empty
      cases find?_unique found foundFirst
      exact ⟨nothing, forced⟩

/-- Every pick is the next picture of the script. -/
theorem picks (plot : Plot origin cues done scheduler window next laid fresh due)
    (tidy : window.Tidy scheduler.past.recent)
    (runs : Runs Scheduler.pickNext (scheduler, window) (.ok (.picture handle)) (other, after)) :
    ∃ outline next laid fresh due picture, handle ∈ laid ∧
      Plot origin cues (done ++ [outline]) other (after.adjust handle Picture.issue) next laid fresh
        due ∧
      after.find? handle = some picture ∧ picture.Outlined after handle outline ∧
      picture.Follows after done := by
  cases plot.chooses tidy runs with
  | due found describes =>
      exact ⟨_, _, _, _, _, _, plot.due_laid (List.mem_cons_self ..), plot.issue_due, found,
        describes.outlined found (plot.apart _ (List.mem_cons_self ..)),
        plot.follows_due found describes⟩
  | anchor opens turns schedules tidy groups arranged =>
      obtain ⟨_, foundAfter, outlined⟩ := plot.outlined_anchor groups
      exact ⟨_, _, _, _, _, _, by simp,
        plot.issue_anchor (fun empty => (opens empty).1) turns schedules groups arranged tidy,
        foundAfter, outlined, plot.follows_anchor (fun empty => (opens empty).2) groups foundAfter⟩

theorem picks_late (plot : Plot origin cues [] scheduler window next laid fresh due)
    (tidy : window.Tidy scheduler.past.recent)
    (runs : Runs Scheduler.pickNext (scheduler, window) (.ok (.picture handle)) (other, after)) :
    scheduler.awaitsTimestamps = false ∨ scheduler.endOfStream = true := by
  have nothing := plot.begun rfl
  have noDue : due = [] := by
    refine List.eq_nil_iff_forall_not_mem.mpr fun mark member => ?_
    have isLaid := plot.due_laid member
    rw [nothing] at isLaid
    cases isLaid
  subst noDue
  obtain ⟨group, chosen, _⟩ := plot.takes_anchor tidy runs
  exact Scheduler.late_of_nextAnchor chosen

theorem finished (plot : Plot origin cues done scheduler window next laid fresh due)
    (issued : ∀ handle picture, window.find? handle = some picture → picture.issued = true) :
    Cursor.script cues origin [] = done := by
  have noDue : due = [] := by
    refine List.eq_nil_iff_forall_not_mem.mpr fun mark member => ?_
    obtain ⟨picture, found, _, unissued⟩ := plot.due_unissued member
    cases unissued.symm.trans (issued _ picture found)
  have noFresh : fresh = [] := by
    refine List.eq_nil_iff_forall_not_mem.mpr fun handle member => ?_
    obtain ⟨picture, found, isFresh⟩ := plot.arranged.unscheduled handle member
    cases isFresh.waiting.symm.trans (issued _ picture found)
  subst noDue noFresh
  have none : cues.drop next = [] := plot.cued.symm
  have whole := plot.script [] fun _ => rfl
  rw [none] at whole
  simpa [Cursor.script] using whole

end Plot

end VideoSchedule

import VideoSchedule.Proofs.Script
import VideoSchedule.Proofs.Session

/-!
The script behind a window. What was issued so far, the B-pictures that are laid out and wait, and the
script of the frames that came in since make up the script of the whole stream, whatever frames are
still to come. Every pick issues the next picture of the script.
-/

namespace VideoSchedule

open VideoSchedule.Action Window

variable {ι : Type} {scheduler other : Scheduler} {window before after : Window ι}
  {origin : Cursor} {cues : List Bool} {done : List Outline} {next : Nat}
  {laid fresh : List Handle} {due rest : List (Mark Handle)} {mark : Mark Handle} {handle : Handle}

def Window.forcedAt (window : Window ι) (handle : Handle) : Bool :=
  ((window.find? handle).map Picture.forceIdr).getD false

def Window.told (window : Window ι) (mark : Mark Handle) : Outline :=
  (mark.map window.orderOf).outline

def Outline.latest (outlines : List Outline) : Option Nat :=
  (outlines.filter Outline.isReference).getLast?.map Outline.displayOrder

theorem Outline.latest_concat (outlines : List Outline) (outline : Outline) :
    latest (outlines ++ [outline]) =
      if outline.isReference then some outline.displayOrder else latest outlines := by
  rw [latest, List.filter_append]
  cases reference : outline.isReference <;> simp [reference, latest]

/-- The last reference picture that was issued, and how the pictures that wait go on from it. -/
structure Window.Latest (window : Window ι) (recent : List Handle) (due : List (Mark Handle))
    (current : Handle) : Prop where
  live : current ∈ window.handles
  trailed : window.Trailed current due
  last : recent.getLast? = some (Mark.last current due)

def Scheduler.cursor (scheduler : Scheduler) (window : Window ι) (laid : List Handle)
    (next : Nat) : Cursor where
  gop := scheduler.gop
  anchor := laid.getLast?.map window.orderOf
  recent := scheduler.past.recent.map window.orderOf
  next := next

theorem Window.forcedAt_adjust (handle : Handle) (change : Picture ι → Picture ι)
    (same : ∀ picture, (change picture).forceIdr = picture.forceIdr) :
    (window.adjust handle change).forcedAt = window.forcedAt := by
  funext other
  rw [Window.forcedAt, Window.forcedAt, find?_adjust]
  split
  · rw [Option.map_map]
    exact congrArg (Option.getD · false) (Option.map_congr fun picture _ => same picture)
  · rfl

theorem Window.Rewrites.forcedAt {touched : List Handle} (rewrites : Rewrites touched before after) :
    after.forcedAt = before.forcedAt := by
  funext handle
  have same := congrArg (Option.map Picture.forceIdr) (find?_plain_eq rewrites.plain handle)
  rw [Option.map_map, Option.map_map] at same
  exact congrArg (Option.getD · false) same

theorem Window.Before.orderOf_lt {first second : Handle} (ordered : window.Before first second) :
    window.orderOf first < window.orderOf second := by
  obtain ⟨earlier, later, foundFirst, foundSecond, less⟩ := ordered
  rw [orderOf_of_find? foundFirst, orderOf_of_find? foundSecond]
  exact less

theorem Window.find?_enter_of_live (picture : Picture ι)
    (live : handle ∈ window.handles) :
    (window.enter picture).2.find? handle = window.find? handle := by
  obtain ⟨old, found⟩ := exists_of_mem_handles live
  rw [find?_enter_of_find? picture found, found]

theorem Window.orderOf_enter (picture : Picture ι)
    (live : handle ∈ window.handles) :
    (window.enter picture).2.orderOf handle = window.orderOf handle := by
  rw [Window.orderOf, find?_enter_of_live picture live, Window.orderOf]

namespace Scheduler.Arranged

variable {left : List Handle}

theorem laid_live (arranged : scheduler.Arranged window laid fresh) (member : handle ∈ laid) :
    handle ∈ window.handles := by
  rw [arranged.handles]
  exact List.mem_append_left _ member

theorem fresh_live (arranged : scheduler.Arranged window laid fresh) (member : handle ∈ fresh) :
    handle ∈ window.handles := by
  rw [arranged.handles]
  exact List.mem_append_right _ member

theorem cursor_eq (arranged : other.Arranged after left fresh)
    (orders : ∀ handle ∈ left, after.orderOf handle = before.orderOf handle)
    (last : left.getLast? = laid.getLast?) (gop : other.gop = scheduler.gop)
    (past : other.past = scheduler.past) (next : Nat) :
    other.cursor after left next = scheduler.cursor before laid next := by
  have recentEq : other.past.recent.map after.orderOf =
      scheduler.past.recent.map before.orderOf := by
    rw [← past]
    exact List.map_congr_left fun recent member =>
      orders recent (arranged.recents recent member).1
  have anchorEq : left.getLast?.map after.orderOf = laid.getLast?.map before.orderOf := by
    rw [← last]
    exact Option.map_congr fun anchor isLast => orders anchor (List.mem_of_getLast? isLast)
  rw [cursor, gop, anchorEq, recentEq, cursor]

end Scheduler.Arranged

/-- How the script of a stream stands behind a window. `cues` are the frames that came in, `done` is
issued, `due` is laid out and waits, and `next` is the first frame not scheduled yet. -/
structure Plot (origin : Cursor) (cues : List Bool) (done : List Outline) (scheduler : Scheduler)
    (window : Window ι) (next : Nat) (laid fresh : List Handle) (due : List (Mark Handle)) :
    Prop where
  arranged : scheduler.Arranged window laid fresh
  entered : scheduler.inputOrder = cues.length
  counted : next + fresh.length = cues.length
  numbered : fresh.map window.orderOf = List.range' next fresh.length
  cued : fresh.map window.forcedAt = cues.drop next
  waits : ∀ handle ∈ laid, ∀ picture, window.find? handle = some picture →
    (picture.issued = false ↔ handle ∈ due.map Mark.picture)
  charted : window.Charted due
  live : ∀ mark ∈ due, ∀ name ∈ mark.picture :: mark.needs, name ∈ window.handles
  emits : Hierarchy.Emits window.orderOf due
  apart : ∀ mark ∈ due, mark.picture ∉ mark.needs
  begun : done = [] → laid = []
  multi : scheduler.past.multiReference = scheduler.gop.multiReference
  follows : done ≠ [] → ∃ current, window.Latest scheduler.past.recent due current ∧
    Outline.latest done = some (window.orderOf current)
  script : ∀ future, (scheduler.endOfStream = true → future = []) →
    Cursor.script (cues ++ future) origin [] = done ++ due.map window.told ++
      Cursor.script (cues.drop next ++ future) (scheduler.cursor window laid next) []

namespace Plot

theorem due_laid (plot : Plot origin cues done scheduler window next laid fresh due)
    {mark : Mark Handle} (member : mark ∈ due) : mark.picture ∈ laid := by
  obtain ⟨picture, found, describes⟩ := plot.charted mark member
  have live := mem_handles_of_find? found
  rw [plot.arranged.handles, List.mem_append] at live
  refine live.resolve_right fun isFresh => ?_
  obtain ⟨same, foundSame, unscheduled⟩ := plot.arranged.unscheduled _ isFresh
  cases find?_unique found foundSame
  have typed := describes.type
  rw [unscheduled.type] at typed
  cases typed

theorem due_unissued (plot : Plot origin cues done scheduler window next laid fresh due)
    {mark : Mark Handle} (member : mark ∈ due) :
    ∃ picture, window.find? mark.picture = some picture ∧ mark.Describes picture ∧
      picture.issued = false := by
  obtain ⟨picture, found, describes⟩ := plot.charted mark member
  exact ⟨picture, found, describes, (plot.waits _ (plot.due_laid member) picture found).mpr
    (List.mem_map_of_mem member)⟩

end Plot

/-! Changes that leave the plot alone. -/

def Window.Remains (before after : Window ι) : Prop :=
  ∀ handle other, after.find? handle = some other → ∃ picture,
    before.find? handle = some picture ∧ other.layout = picture.layout ∧
      other.issued = picture.issued

namespace Window.Remains

theorem orderOf (remains : before.Remains after) (live : handle ∈ after.handles) :
    after.orderOf handle = before.orderOf handle := by
  obtain ⟨other, foundOther⟩ := exists_of_mem_handles live
  obtain ⟨picture, found, same, _⟩ := remains handle other foundOther
  rw [orderOf_of_find? foundOther, orderOf_of_find? found]
  exact (congrArg Picture.displayOrder same :)

theorem forcedAt (remains : before.Remains after) (live : handle ∈ after.handles) :
    after.forcedAt handle = before.forcedAt handle := by
  obtain ⟨other, foundOther⟩ := exists_of_mem_handles live
  obtain ⟨picture, found, same, _⟩ := remains handle other foundOther
  simp only [Window.forcedAt, foundOther, found, Option.map_some, Option.getD_some]
  exact (congrArg Picture.forceIdr same :)

theorem told (remains : before.Remains after) {mark : Mark Handle}
    (live : ∀ name ∈ mark.picture :: mark.needs, name ∈ after.handles) :
    after.told mark = before.told mark := by
  rw [Window.told, Window.told, Mark.map_congr fun name member => remains.orderOf (live name member)]

theorem latest (remains : before.Remains after) {recent : List Handle} {current : Handle}
    (latest : before.Latest recent due current) (live : current ∈ after.handles)
    (waits : ∀ mark ∈ due, mark.picture ∈ after.handles) : after.Latest recent due current where
  live := live
  trailed := by
    refine latest.trailed.congr fun mark member picture found => ?_
    obtain ⟨other, foundAfter⟩ := exists_of_mem_handles (waits mark member)
    obtain ⟨old, foundOld, same, _⟩ := remains _ other foundAfter
    cases find?_unique found foundOld
    exact ⟨other, foundAfter, (congrArg Picture.previous same :)⟩
  last := latest.last

theorem adjust {change : Picture ι → Picture ι} (handle : Handle)
    (layout : ∀ picture, (change picture).layout = picture.layout)
    (issued : ∀ picture, (change picture).issued = picture.issued) :
    window.Remains (window.adjust handle change) := by
  intro key other found
  rw [find?_adjust] at found
  split at found
  · obtain ⟨picture, foundOld, rfl⟩ := Option.map_eq_some_iff.mp found
    exact ⟨picture, foundOld, layout picture, issued picture⟩
  · exact ⟨other, found, rfl, rfl⟩

theorem cleared {recent : List Handle} {gone : List (Picture ι)}
    (cleared : Retirement.Cleared recent gone before after) : before.Remains after := by
  intro key other found
  obtain ⟨picture, foundOld, stays⟩ := cleared.back found
  exact ⟨picture, foundOld, (congrArg Picture.layout stays.core :), stays.issued⟩

end Window.Remains

theorem Mark.Describes.of_layout {mark : Mark Handle} {picture other : Picture ι}
    (describes : mark.Describes picture) (same : other.layout = picture.layout) :
    mark.Describes other where
  type := (congrArg Picture.type same :).trans describes.type
  depth := (congrArg Picture.depth same :).trans describes.depth
  isReference := (congrArg Picture.isReference same :).trans describes.isReference
  past := (congrArg Picture.past same :).trans describes.past
  future := (congrArg Picture.future same :).trans describes.future
  dpb := (congrArg Picture.dpb same :).trans describes.dpb

theorem Plot.remain (plot : Plot origin cues done scheduler before next laid fresh due)
    (remains : before.Remains after) {left : List Handle} (arranged : other.Arranged after left fresh)
    (subset : ∀ handle ∈ left, handle ∈ laid) (last : left.getLast? = laid.getLast?)
    (live : ∀ mark ∈ due, ∀ name ∈ mark.picture :: mark.needs, name ∈ after.handles)
    (stays : ∀ current, before.Latest scheduler.past.recent due current → current ∈ after.handles)
    (gop : other.gop = scheduler.gop) (past : other.past = scheduler.past)
    (entered : other.inputOrder = scheduler.inputOrder)
    (ended : other.endOfStream = scheduler.endOfStream) :
    Plot origin cues done other after next left fresh due := by
  have ordersEq : fresh.map after.orderOf = fresh.map before.orderOf :=
    List.map_congr_left fun handle member => remains.orderOf (arranged.fresh_live member)
  have cuesEq : fresh.map after.forcedAt = fresh.map before.forcedAt :=
    List.map_congr_left fun handle member => remains.forcedAt (arranged.fresh_live member)
  have toldEq : due.map after.told = due.map before.told :=
    List.map_congr_left fun mark member => remains.told (live mark member)
  have cursorEq : other.cursor after left next = scheduler.cursor before laid next :=
    arranged.cursor_eq (fun handle member => remains.orderOf (arranged.laid_live member)) last gop
      past next
  constructor
  case arranged => exact arranged
  case entered => exact entered.trans plot.entered
  case counted => exact plot.counted
  case numbered =>
    rw [ordersEq]
    exact plot.numbered
  case cued =>
    rw [cuesEq]
    exact plot.cued
  case waits =>
    intro handle member current found
    obtain ⟨picture, foundOld, _, issuedEq⟩ := remains handle current found
    rw [issuedEq]
    exact plot.waits handle (subset handle member) picture foundOld
  case charted =>
    intro mark member
    obtain ⟨current, found⟩ := exists_of_mem_handles (live mark member _ (List.mem_cons_self ..))
    obtain ⟨picture, foundOld, same, _⟩ := remains _ current found
    obtain ⟨old, foundMark, describes⟩ := plot.charted mark member
    cases find?_unique foundOld foundMark
    exact ⟨current, found, describes.of_layout same⟩
  case live => exact live
  case emits =>
    refine plot.emits.congr fun mark member => (remains.orderOf ?_).symm
    exact live mark member _ (List.mem_cons_self ..)
  case apart => exact plot.apart
  case begun =>
    intro none
    refine List.eq_nil_iff_forall_not_mem.mpr fun handle member => ?_
    have isLaid := subset handle member
    rw [plot.begun none] at isLaid
    cases isLaid
  case multi =>
    rw [past, gop]
    exact plot.multi
  case follows =>
    intro went
    obtain ⟨current, latest, order⟩ := plot.follows went
    have isLive := stays current latest
    have left := remains.latest latest isLive fun mark member =>
      live mark member _ (List.mem_cons_self ..)
    refine ⟨current, ?_, ?_⟩
    · rw [past]
      exact left
    · rw [remains.orderOf isLive]
      exact order
  case script =>
    rw [ended, toldEq, cursorEq]
    exact plot.script

theorem Plot.enter (plot : Plot origin cues done scheduler window next laid fresh due)
    {picture : Picture ι} (isFresh : picture.Fresh)
    (order : picture.displayOrder = scheduler.inputOrder)
    (forced : scheduler.inputOrder = 0 → picture.forceIdr = true)
    (goesOn : scheduler.endOfStream = false) :
    Plot origin (cues ++ [picture.forceIdr]) done scheduler.nextInput.2 (window.enter picture).2 next
      laid (fresh ++ [window.nextHandle]) due := by
  have arranged := plot.arranged.enter isFresh order forced
  have toldEq : due.map (window.enter picture).2.told = due.map window.told := by
    refine List.map_congr_left fun mark member => ?_
    rw [told, told, Mark.map_congr fun name named =>
      orderOf_enter picture (plot.live mark member name named)]
  have cursorEq : scheduler.nextInput.2.cursor (window.enter picture).2 laid next =
      scheduler.cursor window laid next :=
    arranged.cursor_eq (fun handle member => orderOf_enter picture
      (plot.arranged.laid_live member)) rfl rfl rfl next
  have within : next ≤ cues.length := by
    have counted := plot.counted
    omega
  constructor
  case arranged => exact arranged
  case entered =>
    rw [List.length_append, List.length_singleton, ← plot.entered]
    rfl
  case counted =>
    have counted := plot.counted
    simp only [List.length_append, List.length_singleton]
    omega
  case numbered =>
    have orders : fresh.map (window.enter picture).2.orderOf = fresh.map window.orderOf :=
      List.map_congr_left fun handle member =>
        orderOf_enter picture (plot.arranged.fresh_live member)
    have counted := plot.counted
    rw [List.map_append, orders, plot.numbered, List.map_singleton,
      orderOf_of_find? (find?_enter_self picture _), order, plot.entered, List.length_append,
      List.length_singleton, List.range'_concat, ← counted, Nat.one_mul]
  case cued =>
    have flags : fresh.map (window.enter picture).2.forcedAt = fresh.map window.forcedAt := by
      refine List.map_congr_left fun handle member => ?_
      rw [forcedAt, find?_enter_of_live picture (plot.arranged.fresh_live member), forcedAt]
    rw [List.map_append, flags, plot.cued, List.map_singleton, List.drop_append_of_le_length within,
      forcedAt, find?_enter_self picture _, Option.map_some, Option.getD_some]
  case waits =>
    intro handle member current found
    rw [find?_enter_of_live picture (plot.arranged.laid_live member)] at found
    exact plot.waits handle member current found
  case charted =>
    intro mark member
    obtain ⟨current, found, describes⟩ := plot.charted mark member
    exact ⟨current, find?_enter_of_find? picture found, describes⟩
  case live =>
    intro mark member name named
    rw [handles_enter]
    exact List.mem_append_left _ (plot.live mark member name named)
  case emits =>
    refine plot.emits.congr fun mark member => (orderOf_enter picture ?_).symm
    exact plot.live mark member _ (List.mem_cons_self ..)
  case apart => exact plot.apart
  case begun => exact plot.begun
  case multi => exact plot.multi
  case follows =>
    intro went
    obtain ⟨current, latest, order⟩ := plot.follows went
    refine ⟨current, ⟨?_, latest.trailed.congr fun mark _ picture found => ?_, latest.last⟩, ?_⟩
    · rw [handles_enter]
      exact List.mem_append_left _ latest.live
    · exact ⟨picture, find?_enter_of_find? _ found, rfl⟩
    · rw [orderOf_enter picture latest.live]
      exact order
  case script =>
    -- the script was the same for every future, so also for one that begins with this frame
    intro future _
    have whole := plot.script (picture.forceIdr :: future) (by simp [goesOn])
    rw [toldEq, cursorEq, List.append_assoc, List.singleton_append, whole,
      List.drop_append_of_le_length within, List.append_assoc _ [picture.forceIdr],
      List.singleton_append]

theorem Plot.advance (plot : Plot origin cues done scheduler window next laid fresh due)
    {picture : Picture ι}
    (found : window.find? handle = some picture) (issued : picture.issued = true)
    {change : Picture ι → Picture ι} (layout : ∀ picture, (change picture).layout = picture.layout)
    (keeps : ∀ picture, (change picture).issued = picture.issued)
    (released : ∀ picture, (change picture).released = picture.released) :
    Plot origin cues done scheduler (window.adjust handle change) next laid fresh due := by
  obtain ⟨isLaid, apart⟩ := plot.arranged.laid_of_issued found issued
  have arranged := plot.arranged.adjust isLaid apart
    (fun picture => ⟨layout picture, (keeps picture).trans⟩) released
  refine plot.remain (.adjust handle layout keeps) arranged (fun _ => id) rfl ?_ ?_ rfl rfl rfl rfl
  · rw [handles_adjust]
    exact plot.live
  · rw [handles_adjust]
    exact fun _ latest => latest.live

theorem Plot.cleared (plot : Plot origin cues done scheduler before next laid fresh due)
    (tidy : before.Tidy scheduler.past.recent) {gone : List (Picture ι)}
    (cleared : Retirement.Cleared scheduler.past.recent gone before after) :
    ∃ left, Plot origin cues done scheduler after next left fresh due := by
  obtain ⟨left, arranged, last, subset⟩ := plot.arranged.cleared cleared tidy
  -- a picture that waits is not complete, so it stays and keeps what it holds
  have waiting : ∀ mark ∈ due, ∃ picture other, before.find? mark.picture = some picture ∧
      mark.Describes picture ∧ after.find? mark.picture = some other ∧
      ∀ name ∈ picture.held, name ∈ after.handles := by
    intro mark member
    obtain ⟨picture, found, describes, unissued⟩ := plot.due_unissued member
    have incomplete := (tidy.consistent _ picture found).incomplete unissued
    obtain ⟨other, foundAfter, stays⟩ := cleared.incomplete found incomplete
    refine ⟨picture, other, found, describes, foundAfter, fun name holds => ?_⟩
    refine cleared.tidy.held_live_of_incomplete foundAfter (stays.complete.trans incomplete) name ?_
    rw [stays.held]
    exact holds
  refine ⟨left, plot.remain (.cleared cleared) arranged (fun _ member => subset.subset member) last
    (fun mark member name named => ?_) (fun current latest => ?_) rfl rfl rfl rfl⟩
  · obtain ⟨picture, other, _, describes, foundAfter, keeps⟩ := waiting mark member
    rcases List.mem_cons.mp named with rfl | needed
    · exact mem_handles_of_find? foundAfter
    · exact keeps name (by simp [Picture.held, describes.dpb, needed])
  · cases due with
    | nil => exact arranged.laid_live (arranged.recents _ (List.mem_of_getLast? latest.last)).1
    | cons mark rest =>
        obtain ⟨picture, _, found, _, _, keeps⟩ := waiting mark (List.mem_cons_self ..)
        obtain ⟨⟨same, foundSame, follows⟩, _⟩ := latest.trailed
        cases find?_unique found foundSame
        exact keeps current (by simp [Picture.held, follows])

theorem Plot.of_scheduler (plot : Plot origin cues done scheduler window next laid fresh due)
    (gop : other.gop = scheduler.gop) (past : other.past = scheduler.past)
    (entered : other.inputOrder = scheduler.inputOrder)
    (ended : other.endOfStream = scheduler.endOfStream) :
    Plot origin cues done other window next laid fresh due := by
  have remains : window.Remains window := fun _ picture found => ⟨picture, found, rfl, rfl⟩
  have arranged := plot.arranged.of_scheduler (congrArg PastPictures.recent past) entered
    (congrArg Gop.maxBDepth gop)
  exact plot.remain remains arranged (fun _ => id) rfl plot.live (fun _ latest => latest.live) gop past
    entered ended

theorem Plot.signalEnd (plot : Plot origin cues done scheduler window next laid fresh due) :
    Plot origin cues done scheduler.signalEnd window next laid fresh due where
  arranged := plot.arranged.of_scheduler rfl rfl rfl
  entered := plot.entered
  counted := plot.counted
  numbered := plot.numbered
  cued := plot.cued
  waits := plot.waits
  charted := plot.charted
  live := plot.live
  emits := plot.emits
  apart := plot.apart
  begun := plot.begun
  multi := plot.multi
  follows := plot.follows
  script future ended := plot.script future fun _ => ended rfl

theorem Plot.start {gop : Gop} (shallow : gop.maxBDepth + 2 ≤ maxDpbSize) :
    Plot { gop } [] [] (Scheduler.ofGop gop) ({} : Window ι) 0 [] [] [] where
  arranged := Scheduler.arranged_start shallow
  entered := rfl
  counted := rfl
  numbered := rfl
  cued := rfl
  waits := by simp
  charted := by simp [Window.Charted]
  live := by simp
  emits := trivial
  apart := by simp
  begun _ := rfl
  multi := rfl
  follows := by simp
  script _ _ := rfl

end VideoSchedule

import VideoSchedule.Proofs.ScriptedRequests

/-!
Pictures show frames. Every picture of a window, and every request, is about the frame that came in at
its display order, and about the image that was made of it.
-/

namespace VideoSchedule

open VideoSchedule.Action Window

variable {ι : Type} {before after window : Window ι} {admitted : List (Frame × ι)}

theorem getElem?_append_of_eq_some {α : Type} {first second : List α} {index : Nat} {value : α}
    (listed : first[index]? = some value) : (first ++ second)[index]? = some value := by
  obtain ⟨inside, _⟩ := List.getElem?_eq_some_iff.mp listed
  rw [List.getElem?_append_left inside, listed]

/-- A picture of a frame. Its payload is there until the picture is complete. -/
structure Picture.Shows (picture : Picture ι) (frame : Frame) (image : ι) : Prop where
  image : picture.image = some image
  pts : picture.pts = frame.pts
  duration : picture.duration = frame.duration
  payload : picture.complete = false → picture.payload = frame.payload
  failed : picture.failed = true → picture.complete = true

def Window.Shows (window : Window ι) (admitted : List (Frame × ι)) : Prop :=
  ∀ handle picture, window.find? handle = some picture → ∃ entry,
    admitted[picture.displayOrder]? = some entry ∧ picture.Shows entry.1 entry.2

structure Picture.Reshows (before after : Picture ι) : Prop where
  displayOrder : after.displayOrder = before.displayOrder
  shows : ∀ frame image, before.Shows frame image → after.Shows frame image

theorem Window.Shows.of_find? (shows : before.Shows admitted)
    (back : ∀ handle other, after.find? handle = some other → ∃ picture,
      before.find? handle = some picture ∧ picture.Reshows other) : after.Shows admitted := by
  intro handle other found
  obtain ⟨picture, foundBefore, reshows⟩ := back handle other found
  obtain ⟨entry, listed, shown⟩ := shows handle picture foundBefore
  exact ⟨entry, by rw [reshows.displayOrder, listed], reshows.shows _ _ shown⟩

theorem Picture.Reshows.of_same {picture other : Picture ι}
    (same : other.plain.core = picture.plain.core) : picture.Reshows other where
  displayOrder := (congrArg Picture.displayOrder same :)
  shows _ _ shown := {
    image := (congrArg Picture.image same :).trans shown.image
    pts := (congrArg Picture.pts same :).trans shown.pts
    duration := (congrArg Picture.duration same :).trans shown.duration
    payload := fun incomplete => (congrArg Picture.payload same :).trans
      (shown.payload ((congrArg Picture.complete same :).symm.trans incomplete))
    failed := fun failed => (congrArg Picture.complete same :).trans
      (shown.failed ((congrArg Picture.failed same :).symm.trans failed)) }

theorem Window.Shows.rewrites {touched : List Handle} (shows : before.Shows admitted)
    (rewrites : Rewrites touched before after) : after.Shows admitted := by
  refine shows.of_find? fun handle other found => ?_
  obtain ⟨picture, foundBefore, same⟩ := rewrites.find?_origin found
  exact ⟨picture, foundBefore, .of_same (congrArg Picture.core same)⟩

theorem Window.Shows.cleared {recent : List Handle} {gone : List (Picture ι)}
    (shows : before.Shows admitted) (cleared : Retirement.Cleared recent gone before after) :
    after.Shows admitted := by
  refine shows.of_find? fun handle other found => ?_
  obtain ⟨picture, foundBefore, stays⟩ := cleared.back found
  exact ⟨picture, foundBefore, .of_same (congrArg (fun core => core.plain.core) stays.core :)⟩

theorem Window.Shows.adjust (shows : window.Shows admitted) (handle : Handle)
    {change : Picture ι → Picture ι}
    (reshows : ∀ picture : Picture ι, picture.Reshows (change picture)) :
    (window.adjust handle change).Shows admitted := by
  refine shows.of_find? fun key other found => ?_
  rw [find?_adjust] at found
  split at found
  · obtain ⟨picture, foundBefore, rfl⟩ := Option.map_eq_some_iff.mp found
    exact ⟨picture, foundBefore, reshows picture⟩
  · exact ⟨other, found, rfl, fun _ _ => id⟩

theorem Window.Shows.enter (shows : window.Shows admitted)
    {frame : Frame} {image : ι} {picture : Picture ι}
    (order : picture.displayOrder = admitted.length) (shown : picture.Shows frame image) :
    (window.enter picture).2.Shows (admitted ++ [(frame, image)]) := by
  intro handle other found
  rw [find?_enter picture handle window] at found
  split at found
  · cases found
    exact ⟨(frame, image), by rw [order, List.getElem?_concat_length], shown⟩
  · obtain ⟨entry, listed, shownOld⟩ := shows handle other found
    exact ⟨entry, getElem?_append_of_eq_some listed, shownOld⟩

namespace Encoder

variable {B : Backend} {before after : Encoder B.recorded} {admitted : List (Frame × B.Image)}
  {flight later : List (Handle × B.recorded.Promise)} {packets : List CodedPicture}
  {window : Window B.recorded.Image} {handle : Handle} {encodeOrder : Nat}

theorem shows_number (shows : window.Shows admitted) (handle : Handle) (encodeOrder : Nat) :
    (window.adjust handle (number (B := B.recorded) encodeOrder)).Shows admitted :=
  shows.adjust handle fun _ =>
    ⟨rfl, fun _ _ shown => ⟨shown.image, shown.pts, shown.duration, shown.payload, shown.failed⟩⟩

theorem shows_issuedWindow (shows : window.Shows admitted) (handle : Handle) (encodeOrder : Nat) :
    (issuedWindow (B := B.recorded) window handle encodeOrder).Shows admitted :=
  (shows_number shows handle encodeOrder).adjust handle fun _ =>
    ⟨rfl, fun _ _ shown => ⟨shown.image, shown.pts, shown.duration, shown.payload, shown.failed⟩⟩

theorem reshows_lose (picture : Picture B.recorded.Image) :
    picture.Reshows (lose (B := B.recorded) picture) :=
  ⟨rfl, fun _ _ shown => ⟨shown.image, shown.pts, shown.duration, (by cases ·), fun _ => rfl⟩⟩

theorem reshows_handOver (picture : Picture B.recorded.Image) :
    picture.Reshows (handOver (B := B.recorded) picture) :=
  ⟨rfl, fun _ _ shown => ⟨shown.image, shown.pts, shown.duration, (by cases ·), fun _ => rfl⟩⟩

def Regards (admitted : List (Frame × B.Image)) (request : Request B.Image) : Prop :=
  ∃ entry, admitted[request.picture.displayOrder]? = some entry ∧ request.image = entry.2 ∧
    request.picture.pts = entry.1.pts ∧ request.picture.duration = entry.1.duration

structure Films (admitted : List (Frame × B.Image)) (encoder : Encoder B.recorded) : Prop where
  shows : encoder.window.Shows admitted
  regards : ∀ request ∈ encoder.backend.requests, Regards admitted request

theorem Asks.regards {picture : Picture B.recorded.Image} {request : Request B.recorded.Image}
    (asks : Asks (B := B.recorded) (window.adjust handle (number (B := B.recorded) encodeOrder))
      handle picture request) (shows : window.Shows admitted) : Regards admitted request := by
  obtain ⟨entry, listed, shown⟩ := shows_number shows handle encodeOrder handle picture asks.found
  refine ⟨entry, ?_, Option.some.inj (asks.image.symm.trans shown.image), ?_, ?_⟩
  · rw [asks.info]
    exact listed
  · rw [asks.info]
    exact shown.pts
  · rw [asks.info]
    exact shown.duration

theorem Films.of_adds (films : Films admitted before) {requested refused : List (Request B.Image)}
    {ended : List Fate} (adds : before.backend.Adds after.backend [] requested refused ended)
    (shows : after.window.Shows admitted) (regards : ∀ request ∈ requested, Regards admitted request) :
    Films admitted after := by
  refine ⟨shows, fun request member => ?_⟩
  rw [adds.requests, List.mem_append] at member
  exact member.elim (films.regards request) (regards request)

theorem Films.picked (films : Films admitted before) {ledger : Ledger B.recorded}
    (core : before.Core ledger [] flight) {scheduler : Scheduler}
    (picks : Runs Scheduler.pickNext (before.scheduler, before.window) (.ok (.picture handle))
      (scheduler, window)) : window.Shows admitted := by
  obtain ⟨schedules, _⟩ := core.picked picks
  obtain ⟨_, rewrites, _⟩ := schedules.rewrites
  exact films.shows.rewrites rewrites

theorem Films.move (films : Films admitted before) (move : Move before flight packets after later) :
    Films admitted after := by
  cases move with
  | issue core free picks answers =>
      have shows := films.picked core picks
      cases answers with
      | accepted asks answer =>
          obtain ⟨adds, _⟩ := Recorded.issue_adds answer
          refine films.of_adds adds (shows_issuedWindow shows _ _) ?_
          simpa using asks.regards shows
  | refuse core picks answers =>
      have shows := films.picked core picks
      cases answers with
      | refused asks answer cleared =>
          refine films.of_adds (Recorded.refused_adds _ answer)
            (((shows_issuedWindow shows _ _).adjust _ reshows_lose).cleared cleared) ?_
          simpa using asks.regards shows
  | @deliver _ front _ _ picture _ _ _ core found numbered delivers =>
      cases delivers with
      | failed foundHere _ answer cleared =>
          cases find?_unique found foundHere
          exact films.of_adds
            (Recorded.collected_adds _ answer)
            ((films.shows.adjust _ reshows_lose).cleared cleared) (by simp)
      | coded foundHere _ _ answer cleared =>
          cases find?_unique found foundHere
          exact films.of_adds
            (Recorded.collected_adds _ answer)
            ((films.shows.adjust _ reshows_handOver).cleared cleared) (by simp)
  | finish core ended issued finishes =>
      cases finishes with
      | retired pictures empty =>
          refine films.of_adds (Recorded.freed_adds _) (fun handle picture found => ?_) (by simp)
          have live := mem_handles_of_find? found
          rw [discard, empty] at live
          cases live

theorem Films.frame (films : Films admitted before) {ledger : Ledger B.recorded}
    (sound : before.Sound ledger) (count : before.scheduler.inputOrder = admitted.length)
    {frame : Frame} {rest : List Frame} {image : B.recorded.Image}
    (waiting : before.waiting = frame :: rest) {middle : Encoder B.recorded}
    (window : middle.window = before.window) (scheduler : middle.scheduler = before.scheduler)
    (adds : before.backend.Adds middle.backend [(frame, some image)] [] [] []) :
    Films (admitted ++ [(frame, image)]) (addPicture (B := B.recorded) frame image middle) := by
  obtain ⟨running, _⟩ := sound.running_of_waiting waiting
  have shows := films.shows
  rw [← window] at shows
  constructor
  · refine shows.enter ?_ ⟨rfl, rfl, rfl, fun _ => rfl, (by cases ·)⟩
    rw [← count, ← scheduler]
    rfl
  · intro request member
    have same : (addPicture (B := B.recorded) frame image middle).backend = middle.backend := rfl
    rw [same, adds.requests, List.append_nil] at member
    obtain ⟨entry, listed, facts⟩ := films.regards request member
    exact ⟨entry, getElem?_append_of_eq_some listed, facts⟩

end Encoder

end VideoSchedule

import VideoSchedule.Proofs.ShownFrames

/-!
Pictures in flight. They stay what they were asked for until they are delivered, and they are numbered
in the order in which they will be; while nothing is refused, so are the requests and the pictures
that the backend is done with.
-/

namespace VideoSchedule

open VideoSchedule.Action Window

section

variable {ι : Type} {before after window : Window ι} {key handle : Handle} {info : PictureInfo}

def Window.Aloft (window : Window ι) (handle : Handle) (info : PictureInfo) : Prop :=
  ∃ picture, window.find? handle = some picture ∧ picture.issued = true ∧
    picture.complete = false ∧ picture.info = info

theorem Window.Aloft.adjust_of_ne (aloft : window.Aloft key info) (different : key ≠ handle)
    (change : Picture ι → Picture ι) : (window.adjust handle change).Aloft key info := by
  obtain ⟨picture, found, facts⟩ := aloft
  exact ⟨picture, by rwa [find?_adjust_of_ne different], facts⟩

theorem Window.Aloft.cleared (aloft : before.Aloft key info) {recent : List Handle}
    {gone : List (Picture ι)} (cleared : Retirement.Cleared recent gone before after) :
    after.Aloft key info := by
  obtain ⟨picture, found, issued, incomplete, infoEq⟩ := aloft
  obtain ⟨other, foundAfter, stays⟩ := cleared.incomplete found incomplete
  have sameInfo : other.info = picture.info := (congrArg Picture.info stays.core :)
  exact ⟨other, foundAfter, stays.issued.trans issued, stays.complete.trans incomplete,
    sameInfo.trans infoEq⟩

theorem Window.Aloft.schedules (aloft : before.Aloft key info) {scheduler other : Scheduler}
    (schedules : Scheduler.Schedules scheduler before other after) : after.Aloft key info := by
  obtain ⟨picture, found, issued, facts⟩ := aloft
  obtain ⟨touched, rewrites, fresh⟩ := schedules.rewrites
  obtain ⟨holds, foundAfter⟩ := rewrites.find?_other found fun member => by
    obtain ⟨same, foundSame, isFresh⟩ := fresh key member
    cases find?_unique found foundSame
    cases issued.symm.trans isFresh.waiting
  exact ⟨_, foundAfter, issued, facts⟩

theorem Window.Aloft.enter (aloft : window.Aloft key info)
    (picture : Picture ι) :
    (window.enter picture).2.Aloft key info := by
  obtain ⟨old, found, facts⟩ := aloft
  exact ⟨old, find?_enter_of_find? picture found, facts⟩

end

namespace Encoder

variable {B : Backend} {before after : Encoder B.recorded} {admitted : List (Frame × B.Image)}
  {flight later : List (Handle × B.recorded.Promise)} {packets : List CodedPicture}
  {window : Window B.recorded.Image} {scheduler : Scheduler} {handle : Handle}
  {ledger : Ledger B.recorded}

structure Flies (encoder : Encoder B.recorded) (flight : List (Handle × B.recorded.Promise)) :
    Prop where
  aloft : ∀ entry ∈ flight, encoder.window.Aloft entry.1 entry.2.1
  numbered : flight.map (fun entry => entry.2.1.encodeOrder) =
    List.range' encoder.scheduler.encodeOrder flight.length
  requested : encoder.backend.refusals = [] →
    encoder.backend.requests.map (fun request => request.picture.encodeOrder) =
      List.range (encoder.scheduler.encodeOrder + flight.length)
  done : encoder.backend.refusals = [] →
    encoder.backend.fates.map (fun fate => fate.1.encodeOrder) =
      List.range encoder.scheduler.encodeOrder

theorem Flies.of_adds (flies : Flies before flight) {allocated : List (Frame × Option B.Image)}
    (adds : before.backend.Adds after.backend allocated [] [] [])
    (aloft : ∀ entry ∈ flight, after.window.Aloft entry.1 entry.2.1)
    (same : after.scheduler.encodeOrder = before.scheduler.encodeOrder) : Flies after flight where
  aloft := aloft
  numbered := by rw [same, flies.numbered]
  requested none := by
    rw [adds.refusals, List.append_nil] at none
    rw [adds.requests, List.append_nil, same, flies.requested none]
  done none := by
    rw [adds.refusals, List.append_nil] at none
    rw [adds.fates, List.append_nil, same, flies.done none]

theorem Flies.picked (flies : Flies before flight) (core : before.Core ledger [] flight)
    (picks : Runs Scheduler.pickNext (before.scheduler, before.window) (.ok (.picture handle))
      (scheduler, window)) :
    scheduler.encodeOrder = before.scheduler.encodeOrder ∧
      ∀ entry ∈ flight, entry.1 ≠ handle ∧ window.Aloft entry.1 entry.2.1 := by
  obtain ⟨schedules, pickable⟩ := core.picked picks
  refine ⟨schedules.encodeOrder, fun entry member => ?_⟩
  have aloft := (flies.aloft entry member).schedules schedules
  refine ⟨?_, aloft⟩
  rintro same
  obtain ⟨waiting, foundWaiting, unissued⟩ := pickable.waiting
  obtain ⟨picture, found, issued, _⟩ := aloft
  rw [same] at found
  cases find?_unique found foundWaiting
  cases issued.symm.trans unissued

theorem aloft_issued {recent : List Handle} (tidy : window.Tidy recent)
    {old picture : Picture B.recorded.Image} {request : Request B.recorded.Image}
    {encodeOrder : Nat} (found : window.find? handle = some old) (unissued : old.issued = false)
    (asks : Asks (B := B.recorded) (window.adjust handle (number (B := B.recorded) encodeOrder))
      handle picture request) :
    (issuedWindow (B := B.recorded) window handle encodeOrder).Aloft handle request.picture ∧
      request.picture.encodeOrder = encodeOrder := by
  cases find?_unique asks.found (find?_adjust_self found _)
  rw [asks.info]
  have incomplete := (tidy.consistent _ _ found).incomplete unissued
  exact ⟨⟨_, find?_adjust_self asks.found _, rfl, incomplete, rfl⟩, rfl⟩

theorem Flies.issue (flies : Flies before flight) (core : before.Core ledger [] flight)
    (picks : Runs Scheduler.pickNext (before.scheduler, before.window) (.ok (.picture handle))
      (scheduler, window))
    {picture : Picture B.recorded.Image} {request : Request B.recorded.Image}
    {promise : B.recorded.Promise}
    (asks : Asks (B := B.recorded) (window.adjust handle (number (B := B.recorded)
      (before.scheduler.encodeOrderFor flight.length))) handle picture request)
    (adds : before.backend.Adds after.backend [] [request] [] [])
    (promised : promise.1 = request.picture) (scheduled : after.scheduler = scheduler)
    (windowEq : after.window = issuedWindow (B := B.recorded) window handle
      (before.scheduler.encodeOrderFor flight.length)) :
    Flies after (flight ++ [(handle, promise)]) := by
  obtain ⟨orderEq, others⟩ := flies.picked core picks
  obtain ⟨_, pickable⟩ := core.picked picks
  obtain ⟨old, found, unissued⟩ := pickable.waiting
  obtain ⟨aloft, number⟩ := aloft_issued pickable.tidy found unissued asks
  rw [Scheduler.encodeOrderFor] at number
  constructor
  · intro entry member
    rw [windowEq]
    rcases List.mem_append.mp member with isOld | isNew
    · obtain ⟨different, stays⟩ := others entry isOld
      exact (stays.adjust_of_ne different _).adjust_of_ne different _
    · rw [List.mem_singleton.mp isNew, promised]
      exact aloft
  · rw [List.map_append, flies.numbered, List.map_singleton, promised, number, scheduled, orderEq,
      List.length_append, List.length_singleton, List.range'_concat, Nat.one_mul]
  · intro none
    rw [adds.refusals, List.append_nil] at none
    rw [adds.requests, List.map_append, flies.requested none, List.map_singleton, number, scheduled,
      orderEq, List.length_append, List.length_singleton, ← Nat.add_assoc, List.range_succ]
  · intro none
    rw [adds.refusals, List.append_nil] at none
    rw [adds.fates, List.append_nil, flies.done none, scheduled, orderEq]

theorem Flies.refuse (flies : Flies before flight) (core : before.Core ledger [] flight)
    (picks : Runs Scheduler.pickNext (before.scheduler, before.window) (.ok (.picture handle))
      (scheduler, window)) {encodeOrder : Nat} {request : Request B.recorded.Image}
    {ended : List Fate} {gone : List (Picture B.recorded.Image)}
    (adds : before.backend.Adds after.backend [] [request] [request] ended)
    (scheduled : after.scheduler = scheduler)
    (cleared : Retirement.Cleared scheduler.past.recent gone
      ((issuedWindow (B := B.recorded) window handle encodeOrder).adjust handle
        (lose (B := B.recorded))) after.window) :
    Flies after flight := by
  obtain ⟨orderEq, others⟩ := flies.picked core picks
  have some : after.backend.refusals ≠ [] := by
    rw [adds.refusals]
    simp
  constructor
  · intro entry member
    obtain ⟨different, stays⟩ := others entry member
    exact (((stays.adjust_of_ne different _).adjust_of_ne different _).adjust_of_ne different
      _).cleared cleared
  · rw [flies.numbered, scheduled, orderEq]
  · exact fun none => absurd none some
  · exact fun none => absurd none some

theorem Flies.deliver {front : Handle × B.recorded.Promise} (flies : Flies before (front :: flight))
    (core : before.Core ledger [] (front :: flight)) {bytes : Option (List UInt8)}
    {change : Picture B.recorded.Image → Picture B.recorded.Image}
    {gone : List (Picture B.recorded.Image)} {recent : List Handle}
    (adds : before.backend.Adds after.backend [] [] [] [(front.2.1, bytes)])
    (cleared : Retirement.Cleared recent gone (before.window.adjust front.1 change) after.window)
    (advanced : after.scheduler.encodeOrder = front.2.1.encodeOrder + 1) : Flies after flight := by
  have numbered := flies.numbered
  rw [List.map_cons, List.length_cons, List.range'_succ] at numbered
  obtain ⟨first, rest⟩ := List.cons.inj numbered
  rw [first] at advanced
  have apart : front.1 ∉ flight.map Prod.fst := by
    have distinct := core.distinct
    rw [List.nil_append, List.map_cons, List.nodup_cons] at distinct
    exact distinct.1
  constructor
  · intro entry member
    have different : entry.1 ≠ front.1 := fun same => apart (same ▸ List.mem_map_of_mem member)
    exact ((flies.aloft entry (List.mem_cons_of_mem _ member)).adjust_of_ne different _).cleared
      cleared
  · rw [advanced, rest]
  · intro none
    rw [adds.refusals, List.append_nil] at none
    rw [adds.requests, List.append_nil, flies.requested none, advanced, List.length_cons]
    congr 1
    omega
  · intro none
    rw [adds.refusals, List.append_nil] at none
    rw [adds.fates, List.map_append, flies.done none, advanced, List.range_succ, List.map_singleton,
      first]

theorem Flies.move (flies : Flies before flight) (move : Move before flight packets after later) :
    Flies after later := by
  cases move with
  | issue core free picks answers =>
      cases answers with
      | accepted asks answer =>
          obtain ⟨adds, promised⟩ := Recorded.issue_adds answer
          exact flies.issue core picks asks adds promised rfl rfl
  | refuse core picks answers =>
      cases answers with
      | refused asks answer cleared =>
          exact flies.refuse core picks
            (Recorded.refused_adds _ answer) rfl cleared
  | @deliver _ front _ _ picture encodeOrder _ _ core found numbered delivers =>
      obtain ⟨same, foundAloft, _, _, info⟩ := flies.aloft front (by simp)
      cases find?_unique found foundAloft
      have order : front.2.1.encodeOrder = encodeOrder := by
        rw [← info, Picture.info, numbered]
        rfl
      cases delivers with
      | failed foundHere _ answer cleared =>
          exact flies.deliver core (Recorded.collected_adds _ answer) cleared (by rw [order]; rfl)
      | coded foundHere _ _ answer cleared =>
          exact flies.deliver core (Recorded.collected_adds _ answer) cleared (by rw [order]; rfl)
  | finish core ended issued finishes =>
      cases finishes with
      | retired pictures empty => exact flies.of_adds (Recorded.freed_adds (B := B) _) (by simp) rfl

end Encoder

end VideoSchedule

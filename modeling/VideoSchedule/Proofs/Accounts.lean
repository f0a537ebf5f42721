import VideoSchedule.Proofs.PicturesInFlight

/-!
Accounts of a session. Every request is in flight or has a fate, every failure is counted once, and
the packets are the pictures with bytes, in the order in which the backend was done with them.
-/

namespace VideoSchedule

open VideoSchedule.Action Window

section

variable {ι : Type} {before after window : Window ι} {handle : Handle} {picture : Picture ι}

def Window.failures (window : Window ι) : Nat := window.pictures.countP Picture.failed

theorem Window.failures_eq_of_map_eq
    (same : after.pictures.map Picture.failed = before.pictures.map Picture.failed) :
    after.failures = before.failures := by
  have counted := congrArg (List.countP id) same
  rwa [List.countP_map, List.countP_map] at counted

theorem Window.failures_adjust (handle : Handle) {change : Picture ι → Picture ι}
    (same : ∀ picture, (change picture).failed = picture.failed) :
    (window.adjust handle change).failures = window.failures :=
  failures_eq_of_map_eq (pictures_map_adjust handle change Picture.failed same window)

theorem Window.failures_adjust_of_fails
    (found : window.find? handle = some picture) (succeeds : picture.failed = false)
    {change : Picture ι → Picture ι} (fails : (change picture).failed = true) :
    (window.adjust handle change).failures = window.failures + 1 := by
  obtain ⟨front, back, around⟩ := exists_around found
  have earlier : window.failures = ((front ++ back).map Prod.snd).countP Picture.failed :=
    (around.pictures_perm.countP_eq _).trans (List.countP_cons_of_neg (by simp [succeeds]))
  have later : (window.adjust handle change).failures =
      ((front ++ back).map Prod.snd).countP Picture.failed + 1 :=
    ((around.adjust change).pictures_perm.countP_eq _).trans (List.countP_cons_of_pos fails)
  rw [later, earlier]

theorem Window.failures_enter (succeeds : picture.failed = false) :
    (window.enter picture).2.failures = window.failures := by
  rw [failures, pictures_enter, List.countP_append, List.countP_singleton, succeeds]
  rfl

theorem Window.failures_rewrites {touched : List Handle} (rewrites : Rewrites touched before after) :
    after.failures = before.failures :=
  failures_eq_of_map_eq (pictures_map_eq_of_plain_eq rewrites.plain Picture.failed fun _ => rfl)

theorem countP_failed_core (pictures : List (Picture ι)) :
    (pictures.map Picture.core).countP Picture.failed = pictures.countP Picture.failed := by
  rw [List.countP_map]
  rfl

theorem Window.failures_cleared {recent : List Handle} {gone : List (Picture ι)}
    (cleared : Retirement.Cleared recent gone before after) :
    gone.countP Picture.failed + after.failures = before.failures := by
  have counted := cleared.pictures.countP_eq Picture.failed
  rw [List.countP_append, countP_failed_core, countP_failed_core, countP_failed_core] at counted
  exact counted.symm

end

def Fate.coded? : Fate → Option (PictureInfo × List UInt8)
  | (picture, some (byte :: rest)) => some (picture, byte :: rest)
  | _ => none

theorem Fate.coded?_failed (picture : PictureInfo) : Fate.coded? (picture, none) = none := rfl

theorem Fate.coded?_empty (picture : PictureInfo) : Fate.coded? (picture, some []) = none := rfl

theorem Fate.coded?_cons (picture : PictureInfo) (byte : UInt8) (rest : List UInt8) :
    Fate.coded? (picture, some (byte :: rest)) = some (picture, byte :: rest) := rfl

/-- A packet of a coded picture: what a client is told of it is what its frame said. -/
structure Conveys {ι : Type} (admitted : List (Frame × ι)) (packet : CodedPicture)
    (coded : PictureInfo × List UInt8) : Prop where
  bitstream : packet.bitstream = coded.2
  displayOrder : packet.info.displayOrder = coded.1.displayOrder
  encodeOrder : packet.info.encodeOrder = coded.1.encodeOrder
  type : packet.info.type = coded.1.type
  keyFrame : packet.info.keyFrame = (coded.1.type == .idr)
  frame : ∃ entry, admitted[packet.info.displayOrder]? = some entry ∧
    packet.info.pts = entry.1.pts ∧ packet.info.duration = entry.1.duration ∧
    packet.info.payload = entry.1.payload

theorem Conveys.grow {ι : Type} {admitted : List (Frame × ι)} {packet : CodedPicture}
    {coded : PictureInfo × List UInt8} (conveys : Conveys admitted packet coded)
    (more : List (Frame × ι)) : Conveys (admitted ++ more) packet coded := by
  obtain ⟨entry, listed, facts⟩ := conveys.frame
  exact { conveys with frame := ⟨entry, getElem?_append_of_eq_some listed, facts⟩ }

namespace Encoder

variable {B : Backend} {before after : Encoder B.recorded} {admitted : List (Frame × B.Image)}
  {flight later : List (Handle × B.recorded.Promise)} {packets more : List CodedPicture}
  {window : Window B.recorded.Image} {scheduler : Scheduler} {handle : Handle}
  {ledger : Ledger B.recorded}

structure Accounts (admitted : List (Frame × B.Image)) (packets : List CodedPicture)
    (encoder : Encoder B.recorded) (flight : List (Handle × B.recorded.Promise)) : Prop where
  settled : (encoder.backend.fates.map Prod.fst ++ flight.map fun entry => entry.2.1).Perm
    (encoder.backend.requests.map Request.picture)
  counted : encoder.failedPictures + encoder.window.failures =
    encoder.backend.fates.countP fun fate => fate.2.isNone
  conveyed : List.Forall₂ (Conveys admitted) packets (encoder.backend.fates.filterMap Fate.coded?)

theorem Accounts.grow (accounts : Accounts admitted packets before flight)
    (frames : List (Frame × B.Image)) : Accounts (admitted ++ frames) packets before flight :=
  { accounts with conveyed := accounts.conveyed.imp fun _ _ conveys => conveys.grow frames }

theorem failures_issued (core : before.Core ledger [] flight)
    (picks : Runs Scheduler.pickNext (before.scheduler, before.window) (.ok (.picture handle))
      (scheduler, window)) (encodeOrder : Nat) :
    (issuedWindow (B := B.recorded) window handle encodeOrder).failures =
      before.window.failures := by
  obtain ⟨schedules, _⟩ := core.picked picks
  obtain ⟨_, rewrites, _⟩ := schedules.rewrites
  refine (failures_adjust handle ?_).trans ((failures_adjust handle ?_).trans
    (failures_rewrites rewrites)) <;> exact fun _ => rfl

theorem Accounts.of_adds (accounts : Accounts admitted packets before flight)
    {allocated : List (Frame × Option B.Image)}
    (adds : before.backend.Adds after.backend allocated [] [] [])
    (counted : after.failedPictures + after.window.failures =
      before.failedPictures + before.window.failures) :
    Accounts admitted packets after flight := by
  constructor
  · rw [adds.fates, adds.requests, List.append_nil, List.append_nil]
    exact accounts.settled
  · rw [adds.fates, List.append_nil, counted, accounts.counted]
  · rw [adds.fates, List.append_nil]
    exact accounts.conveyed

theorem Accounts.issue (accounts : Accounts admitted packets before flight)
    {request : Request B.recorded.Image} {promise : B.recorded.Promise}
    (adds : before.backend.Adds after.backend [] [request] [] [])
    (promised : promise.1 = request.picture) (failures : after.window.failures = before.window.failures)
    (counted : after.failedPictures = before.failedPictures) :
    Accounts admitted packets after (flight ++ [(handle, promise)]) := by
  constructor
  · rw [adds.fates, adds.requests, List.append_nil, List.map_append, List.map_append,
      List.map_singleton, List.map_singleton, promised, ← List.append_assoc]
    exact accounts.settled.append_right _
  · rw [adds.fates, List.append_nil, failures, counted, accounts.counted]
  · rw [adds.fates, List.append_nil]
    exact accounts.conveyed

theorem Accounts.refuse (accounts : Accounts admitted packets before flight)
    {request : Request B.recorded.Image}
    (adds : before.backend.Adds after.backend [] [request] [request] [(request.picture, none)])
    (counted : after.failedPictures + after.window.failures =
      before.failedPictures + before.window.failures + 1) :
    Accounts admitted packets after flight := by
  constructor
  · rw [adds.fates, adds.requests, List.map_append, List.map_append, List.map_singleton,
      List.map_singleton]
    have settled := accounts.settled.append_right [request.picture]
    refine List.Perm.trans ?_ settled
    rw [List.append_assoc, List.append_assoc]
    exact List.perm_append_comm.append_left _
  · rw [adds.fates, counted, accounts.counted, List.countP_append]
    rfl
  · have nothing : [((request.picture, none) : Fate)].filterMap Fate.coded? = [] := rfl
    rw [adds.fates, List.filterMap_append, nothing, List.append_nil]
    exact accounts.conveyed

theorem Accounts.deliver {front : Handle × B.recorded.Promise}
    (accounts : Accounts admitted packets before (front :: flight)) {bytes : Option (List UInt8)}
    (adds : before.backend.Adds after.backend [] [] [] [(front.2.1, bytes)])
    (counted : after.failedPictures + after.window.failures =
      before.failedPictures + before.window.failures + bytes.isNone.toNat)
    (conveyed : List.Forall₂ (Conveys admitted) more (Fate.coded? (front.2.1, bytes)).toList) :
    Accounts admitted (packets ++ more) after flight := by
  constructor
  · rw [adds.fates, adds.requests, List.append_nil, List.map_append, List.append_assoc]
    exact accounts.settled
  · rw [adds.fates, counted, accounts.counted, List.countP_append, List.countP_singleton]
    cases bytes <;> rfl
  · rw [adds.fates, List.filterMap_append]
    exact List.rel_append accounts.conveyed conveyed

theorem succeeds_of_incomplete {picture : Picture B.recorded.Image}
    (shows : window.Shows admitted) (found : window.find? handle = some picture)
    (incomplete : picture.complete = false) : picture.failed = false := by
  obtain ⟨_, _, shown⟩ := shows handle picture found
  exact Bool.eq_false_iff.mpr fun failed => by simp [shown.failed failed] at incomplete

theorem counted_lost {picture : Picture B.recorded.Image} {failed : Nat}
    (found : window.find? handle = some picture) (succeeds : picture.failed = false) {recent : List Handle}
    {gone : List (Picture B.recorded.Image)} {last : Window B.recorded.Image}
    (cleared : Retirement.Cleared recent gone
      (window.adjust handle (lose (B := B.recorded))) last) :
    failed + gone.countP Picture.failed + last.failures = failed + window.failures + 1 := by
  have lost := failures_cleared cleared
  rw [failures_adjust_of_fails found succeeds rfl] at lost
  omega

theorem counted_refused (films : Films admitted before) (core : before.Core ledger [] flight)
    (picks : Runs Scheduler.pickNext (before.scheduler, before.window) (.ok (.picture handle))
      (scheduler, window)) {failed encodeOrder : Nat} {recent : List Handle}
    {gone : List (Picture B.recorded.Image)} {last : Window B.recorded.Image}
    (cleared : Retirement.Cleared recent gone ((issuedWindow (B := B.recorded) window handle
      encodeOrder).adjust handle (lose (B := B.recorded))) last) :
    failed + gone.countP Picture.failed + last.failures = failed + before.window.failures + 1 := by
  obtain ⟨_, pickable⟩ := core.picked picks
  obtain ⟨old, found, unissued⟩ := pickable.waiting
  have tidy := tidy_issuedWindow (B := B.recorded) pickable.tidy handle encodeOrder
  have incomplete := (pickable.tidy.consistent _ _ found).incomplete unissued
  have foundIssued := find?_adjust_self
    (find?_adjust_self found (number (B := B.recorded) encodeOrder)) Picture.issue
  have succeeds := succeeds_of_incomplete (films.picked core picks) found incomplete
  rw [← failures_issued core picks]
  exact counted_lost foundIssued succeeds cleared

theorem conveys_described {picture : Picture B.recorded.Image} {encodeOrder : Nat}
    (films : Films admitted before) (found : before.window.find? handle = some picture)
    (incomplete : picture.complete = false) (numbered : picture.encodeOrder = some encodeOrder)
    (dts : Int) (bytes : List UInt8) :
    List.Forall₂ (Conveys admitted)
      (packetsOf (.ok (delivered (describes (B := B.recorded) picture encodeOrder dts) bytes)))
      (Fate.coded? (picture.info, some bytes)).toList := by
  obtain ⟨entry, listed, shown⟩ := films.shows handle picture found
  cases bytes with
  | nil => exact .nil
  | cons byte rest =>
      refine .cons ?_ .nil
      exact {
        bitstream := rfl
        displayOrder := rfl
        encodeOrder := by simp [describes, Picture.info, numbered]
        type := rfl
        keyFrame := rfl
        frame := ⟨entry, listed, shown.pts, shown.duration, shown.payload incomplete⟩ }

theorem Accounts.move (accounts : Accounts admitted packets before flight)
    (films : Films admitted before) (flies : Flies before flight)
    (move : Move before flight more after later) :
    Accounts admitted (packets ++ more) after later := by
  cases move with
  | issue core free picks answers =>
      cases answers with
      | accepted asks answer =>
          obtain ⟨adds, promised⟩ := Recorded.issue_adds answer
          rw [List.append_nil]
          exact accounts.issue adds promised (failures_issued core picks _) rfl
  | refuse core picks answers =>
      cases answers with
      | refused asks answer cleared =>
          rw [List.append_nil]
          exact accounts.refuse (Recorded.refused_adds _ answer)
            (counted_refused films core picks cleared)
  | @deliver _ front _ _ picture _ _ _ core found numbered delivers =>
      obtain ⟨aloft, foundAloft, _, incomplete, info⟩ := flies.aloft front (by simp)
      cases find?_unique found foundAloft
      cases delivers with
      | failed foundHere _ answer cleared =>
          cases find?_unique found foundHere
          have succeeds := succeeds_of_incomplete films.shows found incomplete
          exact accounts.deliver (Recorded.collected_adds _ answer)
            (counted_lost found succeeds cleared) .nil
      | coded foundHere _ numberedHere answer cleared =>
          cases find?_unique found foundHere
          cases numbered.symm.trans numberedHere
          refine accounts.deliver (Recorded.collected_adds _ answer) ?_ ?_
          · -- a picture that is handed over has not failed, so all that left had failed before
            have left := failures_cleared cleared
            have kept : (before.window.adjust front.1 (handOver (B := B.recorded))).failures =
                before.window.failures := failures_adjust front.1 fun _ => rfl
            rw [kept] at left
            exact (Nat.add_assoc ..).trans (congrArg _ left)
          · rw [← info]
            exact conveys_described films found incomplete numbered _ _
  | finish core ended issued finishes =>
      cases finishes with
      | @retired gone window pictures empty =>
          have counted := pictures.countP_eq Picture.failed
          rw [countP_failed_core, countP_failed_core] at counted
          have none : window.failures = 0 := by
            rw [Window.failures, pictures_eq_nil empty]
            rfl
          rw [List.append_nil]
          refine accounts.of_adds (Recorded.freed_adds (B := B) gone) ?_
          have failed : before.window.failures = gone.countP Picture.failed := counted
          show before.failedPictures + gone.countP Picture.failed + window.failures = _
          rw [none, failed, Nat.add_zero]

end Encoder

end VideoSchedule

import VideoSchedule.Proofs.Timestamps

/-!
The pipeline. In every state of a session its queue holds the pictures that the backend took last,
under consecutive numbers. A picture that is refused takes no number away, and one that fails later
leaves a gap among the packets.
-/

namespace VideoSchedule

open VideoSchedule.Action Window

theorem map_filterMap_of_found {α β γ : Type} {items : List α} {find : α → Option β} {view : β → γ}
    {shown : α → γ} (found : ∀ item ∈ items, ∃ value, find item = some value ∧
      view value = shown item) : (items.filterMap find).map view = items.map shown := by
  induction items with
  | nil => rfl
  | cons item rest ih =>
      obtain ⟨value, here, same⟩ := found item (List.mem_cons_self ..)
      rw [List.filterMap_cons_some here, List.map_cons, List.map_cons, same,
        ih fun other member => found other (List.mem_cons_of_mem _ member)]

namespace Encoder

section

variable {B : Backend} {encoder : Encoder B} {ledger : Ledger B}

def queued (encoder : Encoder B) : List (Picture B.Image) :=
  encoder.queue.promises.filterMap fun entry => encoder.window.find? entry.1

theorem Sound.queue (sound : encoder.Sound ledger) :
    (encoder.queue.promises.map Prod.fst).Nodup ∧
    (∀ handle, handle ∈ encoder.queue.promises.map Prod.fst ↔ ∃ picture,
      encoder.window.find? handle = some picture ∧ picture.issued = true ∧
        picture.complete = false) ∧
    encoder.queue.promises.length ≤ encoder.queue.capacity ∧
    (encoder.caps.pipelined = false → encoder.queue.promises = []) ∧
    ∀ handle picture, encoder.window.find? handle = some picture → picture.issued = true →
      picture.encodeOrder.isSome = true := by
  rcases sound with running | ended
  · exact ⟨running.core.distinct, running.core.flying, running.room, running.direct,
      running.core.numbered⟩
  · have gone : ∀ {handle picture}, encoder.window.find? handle = some picture → False := by
      intro handle picture found
      have live := mem_handles_of_find? found
      rw [ended.window] at live
      cases live
    rw [ended.queue]
    refine ⟨List.nodup_nil, fun handle => ⟨fun member => (List.not_mem_nil member).elim, ?_⟩,
      Nat.zero_le _, fun _ => rfl, fun _ _ found => (gone found).elim⟩
    rintro ⟨picture, found, _⟩
    exact (gone found).elim

end

variable {B : Backend} {before after encoder opening : Encoder B.recorded}
  {flight later : List (Handle × B.recorded.Promise)} {packets more : List CodedPicture}
  {window : Window B.recorded.Image} {handle : Handle} {accepted : List Frame} {origin : Cursor}

/-- How requests that the backend took, pictures in flight and packets are numbered. -/
structure Numbers (packets : List CodedPicture) (encoder : Encoder B.recorded)
    (flight : List (Handle × B.recorded.Promise)) : Prop where
  taken : encoder.backend.acceptances.map (fun request => request.picture.encodeOrder) =
    List.range encoder.backend.acceptances.length
  latest : flight.map (fun entry => entry.2.1) <:+
    encoder.backend.acceptances.map Request.picture
  passed : encoder.failed = false →
    encoder.backend.acceptances.length = encoder.scheduler.encodeOrder + flight.length
  handed : (packets.map fun packet => packet.info.encodeOrder).Sublist
    (List.range encoder.scheduler.encodeOrder)

theorem Numbers.of_same (numbers : Numbers packets before flight)
    (acceptances : after.backend.acceptances = before.backend.acceptances)
    (encodeOrder : after.scheduler.encodeOrder = before.scheduler.encodeOrder)
    (failed : after.failed = before.failed) : Numbers packets after flight where
  taken := by rw [acceptances, numbers.taken]
  latest := by rw [acceptances]; exact numbers.latest
  passed := by rw [acceptances, encodeOrder, failed]; exact numbers.passed
  handed := by rw [encodeOrder]; exact numbers.handed

theorem Asks.encodeOrder_eq {picture : Picture B.recorded.Image} {request : Request B.Image}
    {encodeOrder : Nat}
    (asks : Asks (B := B.recorded) (window.adjust handle (number (B := B.recorded) encodeOrder))
      handle picture request) : request.picture.encodeOrder = encodeOrder := by
  have found := asks.found
  rw [find?_adjust, if_pos rfl, Option.map_eq_some_iff] at found
  obtain ⟨old, _, rfl⟩ := found
  rw [asks.info]
  rfl

theorem Numbers.issue (numbers : Numbers packets before flight) (alive : before.failed = false)
    {request : Request B.Image} {promise : B.recorded.Promise}
    (number : request.picture.encodeOrder = before.scheduler.encodeOrderFor flight.length)
    (promised : promise.1 = request.picture)
    (acceptances : after.backend.acceptances = before.backend.acceptances ++ [request])
    (encodeOrder : after.scheduler.encodeOrder = before.scheduler.encodeOrder) :
    Numbers packets after (flight ++ [(handle, promise)]) := by
  have passed := numbers.passed alive
  rw [Scheduler.encodeOrderFor, ← passed] at number
  constructor
  · rw [acceptances, List.map_append, numbers.taken, List.map_singleton, number, List.length_append,
      List.length_singleton, List.range_succ]
  · obtain ⟨front, split⟩ := numbers.latest
    refine ⟨front, ?_⟩
    rw [acceptances, List.map_append, List.map_append, ← List.append_assoc, split,
      List.map_singleton, List.map_singleton, promised]
  · intro _
    rw [acceptances, List.length_append, List.length_append, passed, encodeOrder,
      List.length_singleton, List.length_singleton, Nat.add_assoc]
  · rw [encodeOrder]
    exact numbers.handed

theorem Numbers.deliver {front : Handle × B.recorded.Promise}
    (numbers : Numbers packets before (front :: flight)) (failed : after.failed = before.failed)
    (acceptances : after.backend.acceptances = before.backend.acceptances)
    (advanced : after.scheduler.encodeOrder = before.scheduler.encodeOrder + 1)
    (given : (more.map fun packet => packet.info.encodeOrder).Sublist
      [before.scheduler.encodeOrder]) : Numbers (packets ++ more) after flight := by
  constructor
  · rw [acceptances, numbers.taken]
  · rw [acceptances]
    exact (List.suffix_cons _ _).trans numbers.latest
  · intro alive
    rw [failed] at alive
    rw [acceptances, numbers.passed alive, advanced, List.length_cons]
    omega
  · rw [advanced, List.map_append, List.range_succ]
    exact numbers.handed.append given

theorem packetsOf_sublist (info : PacketInfo) (bytes : List UInt8) :
    ((packetsOf (.ok (delivered info bytes))).map fun packet => packet.info.encodeOrder).Sublist
      [info.encodeOrder] := by
  rw [packetsOf_delivered]
  split
  · exact List.nil_sublist _
  · exact List.Sublist.refl _

theorem Numbers.move (numbers : Numbers packets before flight) (alive : before.failed = false)
    (flies : Flies before flight) (move : Move before flight more after later) :
    Numbers (packets ++ more) after later := by
  have failed := move.steady.failed
  cases move with
  | issue core free picks answers =>
      obtain ⟨schedules, _⟩ := core.picked picks
      cases answers with
      | accepted asks answer =>
          rw [List.append_nil]
          exact numbers.issue alive asks.encodeOrder_eq (Recorded.issue_adds answer).2
            (Recorded.acceptances_accepted answer) schedules.encodeOrder
  | refuse core picks answers =>
      obtain ⟨schedules, _⟩ := core.picked picks
      cases answers with
      | refused asks answer cleared =>
          rw [List.append_nil]
          refine numbers.of_same ?_ schedules.encodeOrder failed
          exact (Recorded.acceptances_freed _ _).trans (Recorded.acceptances_refused answer)
  | @deliver _ front _ _ picture encodeOrder _ _ core found numbered delivers =>
      obtain ⟨same, foundAloft, _, _, info⟩ := flies.aloft front (List.mem_cons_self ..)
      cases find?_unique found foundAloft
      -- the picture in front has the number that is due
      have order : encodeOrder = before.scheduler.encodeOrder := by
        rw [← flies.front_order, ← info, Picture.info, numbered]
        rfl
      subst order
      cases delivers with
      | failed foundHere _ answer cleared =>
          exact numbers.deliver failed
            ((Recorded.acceptances_freed _ _).trans (Recorded.acceptances_collected _ _ _)) rfl
            (List.nil_sublist _)
      | coded foundHere _ numberedHere answer cleared =>
          cases find?_unique found foundHere
          cases numbered.symm.trans numberedHere
          exact numbers.deliver failed
            ((Recorded.acceptances_freed _ _).trans (Recorded.acceptances_collected _ _ _)) rfl
            (packetsOf_sublist _ _)
  | finish core ended issued finishes =>
      cases finishes with
      | retired pictures empty =>
          rw [List.append_nil]
          exact numbers.of_same (Recorded.acceptances_freed _ _) rfl failed

theorem Numbers.moves (numbers : Numbers packets before flight) (alive : before.failed = false)
    (flies : Flies before flight) (moves : Moves before flight more after later) :
    Numbers (packets ++ more) after later ∧ Flies after later := by
  induction moves with
  | none =>
      rw [List.append_nil]
      exact ⟨numbers, flies⟩
  | next moves move ih =>
      rw [← List.append_assoc]
      exact ⟨ih.1.move (moves.steady.failed.trans alive) ih.2 move, ih.2.move move⟩

theorem Numbers.entry (numbers : Numbers packets before flight) (entry : Entry before after) :
    Numbers packets after flight := by
  cases entry with
  | nothing => exact numbers
  | frame => exact numbers.of_same (Recorded.acceptances_alloc _ _) rfl rfl
  | ending => exact numbers.of_same rfl rfl rfl

structure Lined (packets : List CodedPicture) (encoder : Encoder B.recorded) : Prop where
  numbers : Numbers packets encoder encoder.queue.promises
  aloft : ∀ entry ∈ encoder.queue.promises, encoder.window.Aloft entry.1 entry.2.1
  numbered : encoder.queue.promises.map (fun entry => entry.2.1.encodeOrder) =
    List.range' encoder.scheduler.encodeOrder encoder.queue.promises.length

theorem Lined.of_flies (numbers : Numbers packets encoder encoder.queue.promises)
    (flies : Flies encoder encoder.queue.promises) : Lined packets encoder :=
  ⟨numbers, flies.aloft, flies.numbered⟩

theorem Lined.fail (lined : Lined packets encoder) :
    Lined packets ({ encoder with failed := true } : Encoder B.recorded) :=
  ⟨⟨lined.numbers.taken, lined.numbers.latest, (by simp), lined.numbers.handed⟩, lined.aloft,
    lined.numbered⟩

theorem Lined.strides {ledger : Ledger B.recorded} {result : Except EncodeError Step}
    {admitted : List (Frame × B.Image)} (lined : Lined packets before)
    (chronicle : Chronicle origin admitted packets before before.queue.promises)
    (sound : before.Sound ledger) (alive : before.failed = false)
    (strides : Strides before result after) : Lined (packets ++ packetsOf result) after := by
  cases strides with
  | lost loses failed =>
      cases loses with
      | frame =>
          rw [failed, packetsOf_error, List.append_nil]
          exact ⟨lined.numbers.of_same (Recorded.acceptances_alloc _ _) rfl rfl, lined.aloft,
            lined.numbered⟩
  | went entry picks _ last =>
      obtain ⟨_, chronicleMiddle, _⟩ := chronicle.strides sound entry .none
      have numbers := lined.numbers.entry entry
      rw [← entry.queue] at numbers
      obtain ⟨numbersAfter, flies⟩ := numbers.moves (entry.steady.failed.trans alive)
        chronicleMiddle.flies (picks.last last)
      exact .of_flies numbersAfter flies

theorem Course.lined (course : Course Recorded.SameCalls opening accepted packets encoder)
    (starts : Chronicle origin [] [] opening opening.queue.promises) (empty : opening.waiting = [])
    (fresh : Numbers [] opening opening.queue.promises) : Lined packets encoder := by
  induction course with
  | start => exact .of_flies fresh starts.flies
  | step course sound strode ih =>
      cases strode with
      | dead =>
          rw [packetsOf_error, List.append_nil]
          exact ih
      | alive alive strides =>
          obtain ⟨_, chronicle, _⟩ := course.chronicle starts empty alive
          exact ih.strides chronicle sound alive strides
      | fatal alive strides =>
          obtain ⟨_, chronicle, _⟩ := course.chronicle starts empty alive
          exact (ih.strides chronicle sound alive strides).fail
  | accept _ _ _ _ ih => exact ⟨ih.numbers.of_same rfl rfl rfl, ih.aloft, ih.numbered⟩
  | drain _ ih => exact ⟨ih.numbers.of_same rfl rfl rfl, ih.aloft, ih.numbered⟩
  | code _ _ ih => exact ⟨ih.numbers.of_same rfl rfl rfl, ih.aloft, ih.numbered⟩
  | abandon _ failed _ winds ih =>
      have acceptances := Recorded.acceptances_of_winds winds
      refine ⟨⟨?_, List.nil_suffix, fun alive => ?_, ih.numbers.handed⟩, by simp, rfl⟩
      · rw [acceptances, ih.numbers.taken]
      · cases failed.symm.trans alive
  | progress _ moved ih =>
      exact ⟨ih.numbers.of_same (Recorded.acceptances_of_calls moved) rfl rfl, ih.aloft,
        ih.numbered⟩

/-- The output queue of a session, which may have `depth` pictures in flight, or none if it has one
picture at a time. -/
structure Pipeline (depth : Nat) (pipelined : Bool) (packets : List CodedPicture)
    (encoder : Encoder B.recorded) : Prop where
  distinct : (encoder.queue.promises.map Prod.fst).Nodup
  exact : ∀ handle, handle ∈ encoder.queue.promises.map Prod.fst ↔ ∃ picture,
    encoder.window.find? handle = some picture ∧ picture.issued = true ∧ picture.complete = false
  room : encoder.queue.size ≤ depth
  direct : pipelined = false → encoder.queue.promises = []
  inOrder : encoder.queued.map Picture.info <:+ encoder.backend.acceptances.map Request.picture
  numbered : encoder.queued.map Picture.encodeOrder =
    (List.range' encoder.scheduler.encodeOrder encoder.queue.size).map some
  taken : encoder.backend.acceptances.map (fun request => request.picture.encodeOrder) =
    List.range encoder.backend.acceptances.length
  handed : (packets.map fun packet => packet.info.encodeOrder).Pairwise (· < ·)

section

variable {start : Recorded B} {config : Config} {mode : BlockingMode}
  {trail : List (Call × Except EncodeError Answer)}

theorem numbers_opened (nothing : start.calls = []) (gop : Gop) (config : Config)
    (mode : BlockingMode) :
    Numbers [] (opened (B := B.recorded) start gop config mode) [] := by
  have none : start.acceptances = [] := by simp [Recorded.acceptances, nothing]
  constructor
  · dsimp only [opened]
    rw [none]
    rfl
  · exact List.nil_suffix
  · dsimp only [opened]
    rw [none]
    exact fun _ => rfl
  · exact List.nil_sublist _

/-- Whatever the backend does, between two calls the output queue holds exactly the pictures that are
being encoded, in the order in which they were issued; the pictures that the backend took are numbered
without a gap, and packets come out with rising numbers. -/
theorem Calls.pipeline (nothing : start.calls = [])
    (created : ((create (B := B.recorded) start config mode : Action Unit (Encoder B.recorded))
      ()).result = .ok opening)
    (calls : Calls Recorded.SameCalls opening trail encoder) :
    Pipeline config.asyncDepth (B.capabilities start.inner).pipelined
      (deliveries trail ++ encoder.coded) encoder := by
  have reachable : Reachable (B := B.recorded) start Recorded.SameCalls opening :=
    .created config mode created
  obtain ⟨valid, gop, made, rfl⟩ := create_eq_ok created
  obtain ⟨sound, course⟩ := calls.course reachable.invariant rfl
  obtain ⟨distinct, exact, room, direct, known⟩ := sound.queue
  have lined := course.lined (Chronicle.start nothing valid made mode) rfl
    (numbers_opened nothing gop config mode)
  have setting := course.setting
  rw [setting.capacity] at room
  rw [setting.caps] at direct
  have infos : encoder.queued.map Picture.info =
      encoder.queue.promises.map fun entry => entry.2.1 := by
    refine map_filterMap_of_found fun entry member => ?_
    obtain ⟨picture, found, _, _, info⟩ := lined.aloft entry member
    exact ⟨picture, found, info⟩
  have orders : encoder.queued.map Picture.encodeOrder =
      encoder.queue.promises.map fun entry => some entry.2.1.encodeOrder := by
    refine map_filterMap_of_found fun entry member => ?_
    obtain ⟨picture, found, issued, _, info⟩ := lined.aloft entry member
    obtain ⟨encodeOrder, number⟩ := Option.isSome_iff_exists.mp (known _ _ found issued)
    refine ⟨picture, found, ?_⟩
    rw [← info, number, Picture.info, number]
    rfl
  refine ⟨distinct, exact, room, direct, ?_, ?_, lined.numbers.taken, ?_⟩
  · rw [infos]
    exact lined.numbers.latest
  · rw [orders, OutputQueue.size, ← lined.numbered, List.map_map]
    rfl
  · exact List.pairwise_lt_range.sublist lined.numbers.handed

def balkyDevice : Device := { Device.create .manual none with failIssue := some (3, false) }

/-- Nine frames, of which some were encoded, and up to three pictures in flight. -/
def balked : List (Call × Except EncodeError Answer) × Encoder Backend.simulated.recorded :=
  performAll (List.replicate 9 (.encode {}) ++ List.replicate 5 .receive)
    (onDevice balkyDevice { maxBFrames := 1, asyncDepth := 3 } .blocking)

theorem pipeline_balked :
    balked.2.backend.refusals.map (fun request =>
        (request.picture.displayOrder, request.picture.encodeOrder)) = [(3, 4)] ∧
    balked.2.backend.acceptances.map (fun request =>
        (request.picture.displayOrder, request.picture.encodeOrder)) =
      [(0, 0), (2, 1), (1, 2), (4, 3), (6, 4), (5, 5)] ∧
    balked.2.queued.map Picture.displayOrder = [6, 5] ∧
    Pipeline 3 (Backend.simulated.capabilities balkyDevice).pipelined
      (deliveries balked.1 ++ balked.2.coded) balked.2 := by
  have created : ((create (B := Backend.simulated.recorded) { inner := balkyDevice }
      { maxBFrames := 1, asyncDepth := 3 } .blocking :
        Action Unit (Encoder Backend.simulated.recorded)) ()).result =
      .ok (onDevice balkyDevice { maxBFrames := 1, asyncDepth := 3 } .blocking) := rfl
  refine ⟨by decide +kernel, by decide +kernel, by decide +kernel, ?_⟩
  exact Calls.pipeline rfl created (calls_performAll _ _)

end

end Encoder

end VideoSchedule

import VideoSchedule.Proofs.SessionChronicle

/-!
Whole streams. What a decoder keeps after a picture is all that the next one refers to; the requests
depend on the frames and on the structure of the stream alone; and every frame that was accepted ends
in a packet, in an empty bitstream, or in a failure that is counted.
-/

namespace VideoSchedule

open VideoSchedule.Action Window

theorem Gop.multiReference_of_ofConfig? {config : Config} {caps : Capabilities} {gop : Gop}
    (made : ofConfig? config caps = some gop) :
    gop.multiReference = decide (1 < caps.maxPastRefs) := by
  simp only [ofConfig?] at made
  split at made
  · cases made
    rfl
  split at made
  · cases made
  split at made <;> cases made <;> rfl

/-- What a schedule may depend on in a frame. -/
def Frame.timing (frame : Frame) : Int × Int × Bool := (frame.pts, frame.duration, frame.forceKey)

def Request.view {ι : Type} (request : Request ι) : Outline × Int × Int :=
  (request.outline, request.picture.pts, request.picture.duration)

theorem cuesOf_eq_of_timing {first second : List Frame}
    (same : first.map Frame.timing = second.map Frame.timing) : cuesOf first = cuesOf second := by
  have forced := congrArg (List.map fun timing => timing.2.2) same
  rw [List.map_map, List.map_map] at forced
  cases first with
  | nil =>
      cases second with
      | nil => rfl
      | cons => cases same
  | cons frame rest =>
      cases second with
      | nil => cases same
      | cons other others => exact congrArg (List.cons true) (List.cons.inj forced).2

namespace Encoder

open Recorded

variable {B : Backend} {start : Recorded B} {encoder : Encoder B.recorded}

theorem Reachable.begins (nothing : start.calls = [])
    (reachable : Reachable (B := B.recorded) start SameCalls encoder) :
    ∃ config gop, Gop.ofConfig? config (B.capabilities start.inner) = some gop ∧
      Begins { gop } encoder.backend.requests := by
  obtain ⟨config, mode, gop, accepted, packets, valid, made, course⟩ := reachable.course
  exact ⟨config, gop, made, course.begins (Chronicle.start nothing valid made mode) rfl⟩

/-! Calls one after the other. -/

theorem Calls.performAll {B : Backend} {progress : B.State → B.State → Prop}
    {opening encoder : Encoder B} {trail : List (Call × Except EncodeError Answer)}
    (before : Calls progress opening trail encoder) (calls : List Call) :
    Calls progress opening (trail ++ (Encoder.performAll calls encoder).1)
      (Encoder.performAll calls encoder).2 := by
  induction calls generalizing trail encoder with
  | nil => rwa [Encoder.performAll, List.append_nil]
  | cons call rest ih =>
      have after := ih (before.call call)
      rwa [List.append_assoc] at after

theorem calls_performAll {B : Backend} {progress : B.State → B.State → Prop} (calls : List Call)
    (opening : Encoder B) : Calls progress opening (performAll calls opening).1
      (performAll calls opening).2 := Calls.none.performAll calls

theorem performAll_concat {B : Backend} (calls : List Call) (call : Call) (encoder : Encoder B) :
    performAll (calls ++ [call]) encoder =
      ((performAll calls encoder).1 ++ [(call, (perform call (performAll calls encoder).2).result)],
        (perform call (performAll calls encoder).2).state) := by
  induction calls generalizing encoder with
  | nil => rfl
  | cons first rest ih => rw [List.cons_append, performAll, ih]; rfl

theorem Calls.reachable {B : Backend} {start : B.State} {progress : B.State → B.State → Prop}
    {opening encoder : Encoder B} {trail : List (Call × Except EncodeError Answer)}
    (calls : Calls progress opening trail encoder) (reachable : Reachable start progress opening) :
    Reachable start progress encoder := by
  induction calls with
  | none => exact reachable
  | call _ call ih => exact .called call ih
  | progress _ moved ih => exact .progressed moved ih

/-- Calls to a session on a device, and a drain at the end. -/
def film (device : Device) (config : Config) (mode : BlockingMode) (calls : List Call) :
    List (Call × Except EncodeError Answer) × Encoder Backend.simulated.recorded :=
  performAll (calls ++ [.drain]) (onDevice device config mode)

def filmed : List (Call × Except EncodeError Answer) × Encoder Backend.simulated.recorded :=
  film (Device.create .immediate none) {} .blocking (List.replicate 5 (.encode {}))

theorem filmed_reachable :
    Reachable (B := Backend.simulated.recorded) { inner := Device.create .immediate none } SameCalls
      filmed.2 :=
  (Calls.none.performAll _).reachable (.created {} .blocking rfl)

/-- With a single past reference every picture can be decoded from what the one before it leaves:
what a request refers to, and what a decoder is to keep after it, was kept after the request before,
or is the picture of that one. -/
theorem Reachable.requests_decode (nothing : start.calls = [])
    (reachable : Reachable (B := B.recorded) start SameCalls encoder)
    (single : (B.capabilities start.inner).maxPastRefs ≤ 1) {index : Nat}
    {previous request : Request B.Image} (first : encoder.backend.requests[index]? = some previous)
    (second : encoder.backend.requests[index + 1]? = some request) :
    ∀ reference ∈ request.past ++ request.future ++ request.dpb,
      reference.info.displayOrder ∈ previous.dpb.map (fun kept => kept.info.displayOrder) ∨
        previous.picture.isReference = true ∧
          reference.info.displayOrder = previous.picture.displayOrder := by
  obtain ⟨config, gop, made, cues, rest, script⟩ := reachable.begins nothing
  have alone : gop.multiReference = false := by
    rw [Gop.multiReference_of_ofConfig? made]
    simpa using single
  have opens : Cursor.Open { gop } [] cues := fun none => absurd rfl none
  have decodes : Hierarchy.Decodes Outline.needs Outline.leaves [] (Cursor.script cues { gop } []) :=
    Cursor.decodes_script alone opens (by simp)
  have told : ∀ {place : Nat} {request : Request B.Image},
      encoder.backend.requests[place]? = some request →
        (Cursor.script cues { gop } [])[place]? = some request.outline := by
    intro place request listed
    rw [script]
    exact getElem?_append_of_eq_some (by rw [List.getElem?_map, listed]; rfl)
  intro reference member
  have needed : reference.info.displayOrder ∈ request.outline.needs := by
    have named := List.mem_map_of_mem (f := fun kept => kept.info.displayOrder) member
    rwa [List.map_append, List.map_append] at named
  have left := decodes.neighbours (told first) (told second) _ needed
  rw [Outline.leaves, List.mem_append] at left
  refine left.imp id fun itself => ?_
  split at itself
  next isReference => exact ⟨isReference, List.mem_singleton.mp itself⟩
  next => cases itself

theorem requests_decode_filmed :
    filmed.2.backend.requests.map (fun request => request.picture.displayOrder) = [0, 3, 1, 2, 4] ∧
      ∃ previous request, filmed.2.backend.requests[1]? = some previous ∧
        filmed.2.backend.requests[2]? = some request ∧
        ∀ reference ∈ request.past ++ request.future ++ request.dpb,
          reference.info.displayOrder ∈ previous.dpb.map (fun kept => kept.info.displayOrder) ∨
            previous.picture.isReference = true ∧
              reference.info.displayOrder = previous.picture.displayOrder := by
  have listed : ∀ index : Nat, filmed.2.backend.requests[index]?.isSome = true →
      ∃ request, filmed.2.backend.requests[index]? = some request :=
    fun _ => Option.isSome_iff_exists.mp
  obtain ⟨previous, first⟩ := listed 1 (by decide +kernel)
  obtain ⟨request, second⟩ := listed 2 (by decide +kernel)
  exact ⟨by decide +kernel, previous, request, first, second,
    Reachable.requests_decode rfl filmed_reachable (by decide) first second⟩

/-! Streams that were encoded to the end. -/

/-- A session that was created, used, and drained in the end without a fatal error. -/
structure Completed (start : Recorded B) (config : Config) (mode : BlockingMode)
    (trail : List (Call × Except EncodeError Answer)) (last : Encoder B.recorded) : Prop where
  nothing : start.calls = []
  ran : ∃ (opening encoder : Encoder B.recorded) (before : List (Call × Except EncodeError Answer)),
    ((create (B := B.recorded) start config mode : Action Unit (Encoder B.recorded)) ()).result =
      .ok opening ∧
    Calls SameCalls opening before encoder ∧ Passes (perform .drain encoder).result ∧
    trail = before ++ [(.drain, (perform .drain encoder).result)] ∧
    last = (perform .drain encoder).state

theorem film_completed {device : Device} {config : Config} {mode : BlockingMode} {calls : List Call}
    (accepted : ((create (B := Backend.simulated.recorded) { inner := device } config mode :
      Action Unit (Encoder Backend.simulated.recorded)) ()).result =
        .ok (onDevice device config mode))
    (passes : Passes (perform .drain (performAll calls (onDevice device config mode)).2).result) :
    Completed (B := Backend.simulated) { inner := device } config mode
      (film device config mode calls).1 (film device config mode calls).2 := by
  refine ⟨rfl, _, _, _, accepted, Calls.none.performAll calls, passes, ?_⟩
  rw [film, performAll_concat]
  exact ⟨rfl, rfl⟩

structure Told (gop : Gop) (admitted : List (Frame × B.Image)) (packets : List CodedPicture)
    (last : Encoder B.recorded) : Prop where
  room : 0 < last.queue.capacity
  chronicle : Chronicle { gop } admitted packets last []
  script : Cursor.script (cuesOf (admitted.map Prod.fst)) { gop } [] =
    last.backend.requests.map Request.outline
  alive : last.failed = false
  exhausted : last.Exhausted

variable {config : Config} {mode : BlockingMode} {last : Encoder B.recorded}
  {trail : List (Call × Except EncodeError Answer)}

theorem Course.told {gop : Gop} {accepted : List Frame} {packets : List CodedPicture}
    (course : Course SameCalls (opened start gop config mode) accepted packets last)
    (nothing : start.calls = []) (valid : config.Valid)
    (made : Gop.ofConfig? config (B.recorded.capabilities start) = some gop)
    (alive : last.failed = false) (exhausted : last.Exhausted) :
    ∃ admitted, admitted.map Prod.fst = accepted ∧ Told gop admitted packets last := by
  have room : 0 < last.queue.capacity := by
    rw [course.setting.capacity]
    exact valid.asyncDepth_pos
  obtain ⟨admitted, chronicle, same⟩ :=
    course.chronicle (Chronicle.start nothing valid made mode) rfl alive
  rw [exhausted.queue] at chronicle
  rw [exhausted.waiting, List.append_nil] at same
  refine ⟨admitted, same, room, chronicle, ?_, alive, exhausted⟩
  cases chronicle.tells.stands with
  | through _ _ script => exact script
  | within plot =>
      refine plot.finished fun handle picture found => ?_
      have live := mem_handles_of_find? found
      rw [exhausted.window] at live
      cases live

theorem Completed.told (completed : Completed start config mode trail last) :
    config.Valid ∧ ∃ gop admitted, Gop.ofConfig? config (B.capabilities start.inner) = some gop ∧
      admitted.map Prod.fst = submissions trail ∧
      Told gop admitted (deliveries trail ++ last.coded) last := by
  obtain ⟨nothing, opening, encoder, before, accepted, calls, passes, rfl, rfl⟩ := completed
  obtain ⟨valid, gop, made, rfl⟩ := create_eq_ok accepted
  have reachable : Reachable (B := B.recorded) start SameCalls (opened start gop config mode) :=
    .created config mode accepted
  obtain ⟨soundBefore, course⟩ := calls.course reachable.invariant rfl
  obtain ⟨answer, after, runs, _, ⟨produced, courseAfter, handed⟩, finished⟩ :=
    perform_course soundBefore course .drain
  rw [runs.result_eq] at passes ⊢
  rw [runs.state_eq]
  obtain ⟨alive, exhausted⟩ := finished rfl passes
  have all : deliveries before ++ encoder.coded ++ produced =
      deliveries (before ++ [(.drain, answer)]) ++ after.coded := by
    rw [deliveries, deliveries, List.flatMap_append, List.flatMap_singleton, List.append_assoc,
      List.append_assoc, handed]
  have frames : submissions before ++ acceptedBy .drain answer =
      submissions (before ++ [(.drain, answer)]) := by
    rw [submissions, submissions, List.flatMap_append, List.flatMap_singleton]
  rw [all, frames] at courseAfter
  obtain ⟨admitted, same, told⟩ := courseAfter.told nothing valid made alive exhausted
  exact ⟨valid, gop, admitted, made, same, told⟩

/-! What the requests depend on. -/

def scheduled (frames : List (Int × Int × Bool)) (outline : Outline) : Outline × Int × Int :=
  (outline, (frames.getD outline.displayOrder default).1,
    (frames.getD outline.displayOrder default).2.1)

theorem Told.views {gop : Gop} {admitted : List (Frame × B.Image)} {packets : List CodedPicture}
    (told : Told gop admitted packets last) :
    last.backend.requests.map Request.view =
      (Cursor.script (cuesOf (admitted.map Prod.fst)) { gop } []).map
        (scheduled ((admitted.map Prod.fst).map Frame.timing)) := by
  rw [told.script, List.map_map]
  refine List.map_congr_left fun request member => ?_
  obtain ⟨entry, listed, _, pts, duration⟩ := told.chronicle.films.regards request member
  simp [Request.view, scheduled, Request.outline, Frame.timing, List.getD, listed, pts, duration]

theorem Told.numbers {gop : Gop} {admitted : List (Frame × B.Image)} {packets : List CodedPicture}
    (told : Told gop admitted packets last) (none : last.backend.refusals = []) :
    last.backend.requests.map (fun request => request.picture.encodeOrder) =
      List.range last.backend.requests.length := by
  have numbered := told.chronicle.flies.requested none
  have length := congrArg List.length numbered
  rw [List.length_map, List.length_range] at length
  rw [numbered, length]

/-- The requests of a stream depend on its frames and on the configuration, and on nothing that a
backend or a client does: not on how many pictures may be in flight, on when they are ready, on the
order of the calls, or on what fails. If no request was refused, the encode orders are the same too. -/
theorem Completed.same_requests {C : Backend} {other : Recorded C} {otherConfig : Config}
    {otherMode : BlockingMode} {otherTrail : List (Call × Except EncodeError Answer)}
    {otherLast : Encoder C.recorded} (first : Completed start config mode trail last)
    (second : Completed other otherConfig otherMode otherTrail otherLast)
    (configs : otherConfig = { config with asyncDepth := otherConfig.asyncDepth })
    (offers : C.capabilities other.inner =
      { B.capabilities start.inner with pipelined := (C.capabilities other.inner).pipelined })
    (frames : (submissions otherTrail).map Frame.timing = (submissions trail).map Frame.timing) :
    otherLast.backend.requests.map Request.view = last.backend.requests.map Request.view ∧
      (last.backend.refusals = [] → otherLast.backend.refusals = [] →
        otherLast.backend.requests.map (fun request => request.picture.encodeOrder) =
          last.backend.requests.map fun request => request.picture.encodeOrder) := by
  obtain ⟨_, gop, admitted, made, framesEq, told⟩ := first.told
  obtain ⟨_, otherGop, others, otherMade, othersEq, otherTold⟩ := second.told
  have sameGop : otherGop = gop := by
    rw [configs, offers] at otherMade
    exact Option.some.inj (otherMade.symm.trans made)
  rw [← framesEq, ← othersEq] at frames
  have views : otherLast.backend.requests.map Request.view =
      last.backend.requests.map Request.view := by
    rw [told.views, otherTold.views, frames, cuesOf_eq_of_timing frames, sameGop]
  refine ⟨views, fun none otherNone => ?_⟩
  have length := congrArg List.length views
  rw [List.length_map, List.length_map] at length
  rw [told.numbers none, otherTold.numbers otherNone, length]

/-- A device that finishes pictures later, fails on two of them and has no bytes for a third. -/
def faultyDevice : Device :=
  { Device.create .manual none with
    failIssue := some (1, false), failOutput := some 3, emptyOutput := some 2 }

/-- The frames of `filmed` again, with a client that looks for packets in between. -/
def refilmed : List (Call × Except EncodeError Answer) × Encoder Backend.simulated.recorded :=
  film faultyDevice { asyncDepth := 3 } .nonBlocking
    ([.encode {}, .poll, .encode {}, .receive] ++ List.replicate 3 (.encode {}))

theorem refilmed_completed :
    Completed (B := Backend.simulated) { inner := faultyDevice } { asyncDepth := 3 } .nonBlocking
      refilmed.1 refilmed.2 :=
  film_completed rfl (by decide +kernel)

theorem same_requests_refilmed :
    refilmed.2.backend.fates.map (fun fate => (fate.1.displayOrder, fate.2.isSome)) =
        [(1, false), (0, true), (3, false), (2, true), (4, true)] ∧
      refilmed.2.backend.requests.map Request.view = filmed.2.backend.requests.map Request.view ∧
      (filmed.2.backend.refusals = [] → refilmed.2.backend.refusals = [] →
        refilmed.2.backend.requests.map (fun request => request.picture.encodeOrder) =
          filmed.2.backend.requests.map fun request => request.picture.encodeOrder) :=
  ⟨by decide +kernel, Completed.same_requests (film_completed rfl (by decide +kernel))
    refilmed_completed rfl rfl (by decide +kernel)⟩

/-! What becomes of every frame. -/

/-- What a client gets of a frame: nothing if the backend failed on it or had no bytes, and else one
packet. -/
inductive Ends (frame : Frame) (picture : PictureInfo) :
    Option (List UInt8) → List CodedPicture → Prop where
  | failed : Ends frame picture none []
  | empty : Ends frame picture (some []) []
  | packet {packet : CodedPicture} (bytes : packet.bitstream ≠ [])
      (displayOrder : packet.info.displayOrder = picture.displayOrder)
      (pts : packet.info.pts = frame.pts) (duration : packet.info.duration = frame.duration)
      (payload : packet.info.payload = frame.payload) (type : packet.info.type = picture.type)
      (keyFrame : packet.info.keyFrame = true ↔ packet.info.type = .idr) :
      Ends frame picture (some packet.bitstream) [packet]

theorem ends_of_conveys {admitted : List (Frame × B.Image)} {frame : Frame} {image : B.Image}
    {picture : PictureInfo} {outcome : Option (List UInt8)} {packets : List CodedPicture}
    (listed : admitted[picture.displayOrder]? = some (frame, image))
    (conveyed : List.Forall₂ (Conveys admitted) packets (Fate.coded? (picture, outcome)).toList) :
    Ends frame picture outcome packets := by
  rcases outcome with _ | _ | ⟨byte, rest⟩
  · rw [Fate.coded?_failed, Option.toList_none] at conveyed
    cases conveyed
    exact .failed
  · rw [Fate.coded?_empty, Option.toList_none] at conveyed
    cases conveyed
    exact .empty
  · rw [Fate.coded?_cons, Option.toList_some] at conveyed
    cases conveyed with
    | @cons packet _ _ _ conveys nothing =>
        cases nothing
        obtain ⟨entry, listedHere, pts, duration, payload⟩ := conveys.frame
        rw [conveys.displayOrder, listed] at listedHere
        cases listedHere
        have bytes : byte :: rest = packet.bitstream := conveys.bitstream.symm
        rw [bytes]
        refine .packet ?_ conveys.displayOrder pts duration payload conveys.type ?_
        · rw [← bytes]
          exact List.cons_ne_nil _ _
        · rw [conveys.keyFrame, conveys.type, beq_iff_eq]

theorem exists_filter_of_perm_range {α : Type} {items : List α} {order : α → Nat} {count index : Nat}
    (perm : (items.map order).Perm (List.range count)) (inside : index < count) :
    ∃ item, items.filter (fun item => order item == index) = [item] := by
  refine List.length_eq_one_iff.mp ?_
  have counted := perm.count_eq index
  rw [List.count_eq_one_of_mem List.nodup_range (List.mem_range.mpr inside), List.count,
    List.countP_map] at counted
  rw [← List.countP_eq_length_filter]
  exact counted

theorem filter_coded (fates : List Fate) (order : Nat) :
    (fates.filterMap Fate.coded?).filter (fun coded => coded.1.displayOrder == order) =
      (fates.filter fun fate => fate.1.displayOrder == order).filterMap Fate.coded? := by
  rw [List.filter_filterMap, List.filterMap_filter]
  congr 1
  funext fate
  rcases fate with ⟨picture, _ | _ | ⟨byte, rest⟩⟩
  · simp [Fate.coded?_failed]
  · simp [Fate.coded?_empty]
  · simp [Fate.coded?_cons, Option.filter_some]

theorem orders_cues (gop : Gop) (frames : List Frame) :
    ((Cursor.script (cuesOf frames) { gop } []).map Outline.displayOrder).Perm
      (List.range frames.length) := by
  have perm : ((Cursor.script (cuesOf frames) { gop } []).map Outline.displayOrder).Perm
      ([] ++ List.range' 0 (cuesOf frames).length) := by
    refine Cursor.orders_script fun _ => ⟨rfl, ?_⟩
    cases frames <;> rfl
  rwa [List.nil_append, length_cuesOf, ← List.range_eq_range'] at perm

theorem Told.orders {gop : Gop} {admitted : List (Frame × B.Image)} {packets : List CodedPicture}
    (told : Told gop admitted packets last) :
    (last.backend.requests.map fun request => request.picture.displayOrder).Perm
      (List.range admitted.length) := by
  have perm := orders_cues gop (admitted.map Prod.fst)
  rwa [told.script, List.map_map, List.length_map] at perm

theorem Told.settled {gop : Gop} {admitted : List (Frame × B.Image)} {packets : List CodedPicture}
    (told : Told gop admitted packets last) :
    (last.backend.fates.map Prod.fst).Perm (last.backend.requests.map Request.picture) := by
  have settled := told.chronicle.accounts.settled
  rwa [List.map_nil, List.append_nil] at settled

theorem Told.ends {gop : Gop} {admitted : List (Frame × B.Image)} {packets : List CodedPicture}
    (told : Told gop admitted packets last) {order : Nat} {frame : Frame} {image : B.Image}
    (listed : admitted[order]? = some (frame, image)) :
    ∃ request outcome,
      last.backend.requests.filter (fun request => request.picture.displayOrder == order) =
        [request] ∧ request.image = image ∧
      last.backend.fates.filter (fun fate => fate.1.displayOrder == order) =
        [(request.picture, outcome)] ∧
      Ends frame request.picture outcome
        (packets.filter fun packet => packet.info.displayOrder == order) := by
  obtain ⟨inside, _⟩ := List.getElem?_eq_some_iff.mp listed
  obtain ⟨request, requested⟩ := exists_filter_of_perm_range told.orders inside
  -- requests and outcomes are each a permutation of the frames, so both have one of this order
  have fatesOrders : (last.backend.fates.map fun fate => fate.1.displayOrder).Perm
      (List.range admitted.length) := by
    have moved := told.settled.map PictureInfo.displayOrder
    rw [List.map_map, List.map_map] at moved
    exact moved.trans told.orders
  obtain ⟨fate, settled⟩ := exists_filter_of_perm_range fatesOrders inside
  have member : request ∈ last.backend.requests ∧ request.picture.displayOrder = order := by
    have found : request ∈ [request] := List.mem_singleton_self _
    rw [← requested, List.mem_filter, beq_iff_eq] at found
    exact found
  have same : fate.1 = request.picture := by
    have moved := told.settled.filter fun picture => picture.displayOrder == order
    rw [List.filter_map, List.filter_map] at moved
    simp only [Function.comp_def, settled, requested, List.map_singleton] at moved
    exact List.singleton_perm_singleton.mp moved
  obtain ⟨entry, listedHere, imageEq, _⟩ := told.chronicle.films.regards request member.1
  rw [member.2, listed] at listedHere
  cases listedHere
  obtain ⟨picture, outcome⟩ := fate
  dsimp only at same
  subst same
  refine ⟨request, outcome, requested, imageEq, settled, ?_⟩
  rw [← member.2] at listed
  refine ends_of_conveys listed ?_
  rw [member.2] at listed
  have conveyed := List.rel_filter (p := fun packet : CodedPicture => packet.info.displayOrder == order)
    (q := fun coded : PictureInfo × List UInt8 => coded.1.displayOrder == order) ?_
    told.chronicle.accounts.conveyed
  · have alone : [((request.picture, outcome) : Fate)].filterMap Fate.coded? =
        (Fate.coded? (request.picture, outcome)).toList := by
      rw [List.filterMap_cons]
      cases Fate.coded? (request.picture, outcome) <;> rfl
    rwa [filter_coded, settled, alone] at conveyed
  · intro packet coded conveys
    simp [conveys.displayOrder]

/-- Nothing is lost and nothing comes twice. Every frame that was accepted was allocated once and
requested once, under the display order in which it was submitted, and has one outcome; failures are
counted once each. Nothing is left in the window or in flight, and further calls for packets hand out
those that are left and then say that the stream has ended. -/
theorem Completed.conserved (completed : Completed start config mode trail last) :
    last.backend.allocations.length = (submissions trail).length ∧
    last.backend.requests.length = (submissions trail).length ∧
    last.backend.fates.length = (submissions trail).length ∧
    (∀ order frame, (submissions trail)[order]? = some frame → ∃ image request outcome,
      last.backend.allocations[order]? = some (frame, some image) ∧
      last.backend.requests.filter (fun request => request.picture.displayOrder == order) =
        [request] ∧ request.image = image ∧
      last.backend.fates.filter (fun fate => fate.1.displayOrder == order) =
        [(request.picture, outcome)] ∧
      Ends frame request.picture outcome ((deliveries trail ++ last.coded).filter fun packet =>
        packet.info.displayOrder == order)) ∧
    last.failedPictures = last.backend.fates.countP (fun fate => fate.2.isNone) ∧
    last.windowSize = 0 ∧ last.inFlight = 0 ∧
    ∀ later encoder, Calls SameCalls last later encoder → (∀ entry ∈ later, entry.1 = .receive) →
      later.map Prod.snd = (List.range later.length).map fun index =>
        .ok (last.coded[index]?.elim .endOfStream Answer.packet) := by
  obtain ⟨_, gop, admitted, _, frames, told⟩ := completed.told
  have allocated := told.chronicle.tells.allocated
  rw [← frames]
  have count : last.backend.requests.length = admitted.length := by
    simpa using told.orders.length_eq
  refine ⟨?_, ?_, ?_, ?_, ?_, ?_, ?_, fun later encoder calls receives =>
    (calls.receives told.exhausted told.alive told.room receives).2⟩
  · rw [allocated, List.length_map, List.length_map]
  · rw [count, List.length_map]
  · rw [List.length_map, ← count]
    simpa using told.settled.length_eq
  · intro order frame listed
    rw [List.getElem?_map, Option.map_eq_some_iff] at listed
    obtain ⟨⟨_, image⟩, listed, rfl⟩ := listed
    obtain ⟨request, outcome, facts⟩ := told.ends listed
    refine ⟨image, request, outcome, ?_, facts⟩
    rw [allocated, List.getElem?_map, listed]
    rfl
  · have counted := told.chronicle.accounts.counted
    rwa [Window.failures, pictures_eq_nil told.exhausted.window, List.countP_nil, Nat.add_zero]
      at counted
  · have empty := congrArg List.length told.exhausted.window
    exact empty
  · rw [inFlight, OutputQueue.size, told.exhausted.queue, List.length_nil]

theorem conserved_refilmed :
    refilmed.2.coded.map (fun packet => packet.info.displayOrder) = [0, 4] ∧
      refilmed.2.failedPictures = 2 ∧
      (∀ order frame, (submissions refilmed.1)[order]? = some frame → ∃ image request outcome,
        refilmed.2.backend.allocations[order]? = some (frame, some image) ∧
        refilmed.2.backend.requests.filter (fun request => request.picture.displayOrder == order) =
          [request] ∧ request.image = image ∧
        refilmed.2.backend.fates.filter (fun fate => fate.1.displayOrder == order) =
          [(request.picture, outcome)] ∧
        Ends frame request.picture outcome
          ((deliveries refilmed.1 ++ refilmed.2.coded).filter fun packet =>
            packet.info.displayOrder == order)) ∧
      refilmed.2.windowSize = 0 ∧ refilmed.2.inFlight = 0 ∧
      ∀ later encoder, Calls SameCalls refilmed.2 later encoder →
        (∀ entry ∈ later, entry.1 = .receive) →
          later.map Prod.snd = (List.range later.length).map fun index =>
            .ok (refilmed.2.coded[index]?.elim .endOfStream Answer.packet) := by
  obtain ⟨_, _, _, ends, counted, empty, landed, receives⟩ :=
    Completed.conserved refilmed_completed
  exact ⟨by decide +kernel, by decide +kernel, ends, empty, landed, receives⟩

end Encoder

end VideoSchedule

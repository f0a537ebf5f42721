import VideoSchedule.Backend.Faulty
import VideoSchedule.Proofs.Reorder
import VideoSchedule.Proofs.Timestamps

/-!
Packets are decoded before they are shown. What a packet is stamped with was read from the ring at an
order that is not after its place among the requests, and its frame is at most as many places before
that as the clock lags behind.
-/

namespace VideoSchedule

namespace DecodeClock

/-- Timestamps that do not go back. They fit a signed word, and so does the time from the first to the
last of them. -/
structure Orderly (times : List Int) : Prop where
  ordered : times.Pairwise (· ≤ ·)
  fit : ∀ time ∈ times, Tick.InRange time
  span : ∀ first last, times.head? = some first → times.getLast? = some last →
    last - first ≤ Tick.highest

variable {times : List Int} {delay order place first second : Nat}

theorem getD_mem (inside : first < times.length) : times.getD first 0 ∈ times := by
  rw [List.getD_eq_getElem _ _ inside]
  exact List.getElem_mem inside

theorem Orderly.getD_le (orderly : Orderly times) (earlier : first ≤ second)
    (inside : second < times.length) : times.getD first 0 ≤ times.getD second 0 := by
  rcases Nat.eq_or_lt_of_le earlier with rfl | before
  · exact le_rfl
  · have ordered := List.pairwise_iff_getElem.mp orderly.ordered first second (by omega) inside before
    rwa [List.getD_eq_getElem _ _ inside, List.getD_eq_getElem _ _ (Nat.lt_trans before inside)]

theorem Orderly.of_append {more : List Int} (orderly : Orderly (times ++ more)) : Orderly times := by
  obtain ⟨ordered, fit, span⟩ := orderly
  refine ⟨(List.pairwise_append.mp ordered).1, fun time member => fit time (by simp [member]), ?_⟩
  intro first last isFirst isLast
  have head : (times ++ more).head? = some first := by simp [isFirst]
  cases moreEq : more.getLast? with
  | none =>
      rw [List.getLast?_eq_none_iff.mp moreEq, List.append_nil] at span
      exact span first last isFirst isLast
  | some final =>
      have whole := span first final head (by simp [moreEq])
      have later := (List.pairwise_append.mp ordered).2.2 last (List.mem_of_getLast? isLast) final
        (List.mem_of_getLast? moreEq)
      omega

theorem Orderly.elapsed (orderly : Orderly times) (inside : first < times.length) :
    0 ≤ times.getD first 0 - times.getD 0 0 ∧
      times.getD first 0 - times.getD 0 0 ≤ Tick.highest := by
  have lower := orderly.getD_le (Nat.zero_le first) inside
  have upper := orderly.getD_le (Nat.le_sub_one_of_lt inside) (by omega)
  have head : times.head? = some (times.getD 0 0) := by
    rw [List.head?_eq_getElem?, List.getElem?_eq_getElem (by omega), List.getD_eq_getElem]
  have tail : times.getLast? = some (times.getD (times.length - 1) 0) := by
    rw [List.getLast?_eq_getElem?, List.getElem?_eq_getElem (by omega), List.getD_eq_getElem]
  have span := orderly.span _ _ head tail
  omega

theorem Orderly.wanted_le (orderly : Orderly times) (upTo : order ≤ place)
    (inside : order < times.length) (shown : place - delay < times.length) :
    wanted times delay order ≤ times.getD (place - delay) 0 := by
  rw [wanted]
  split
  next early =>
    have start := orderly.getD_le (Nat.zero_le (place - delay)) shown
    have reached : min delay (times.length - 1) < times.length := by omega
    have lag := orderly.elapsed reached
    have before := orderly.getD_le (Nat.le_min.mpr ⟨early.le, Nat.le_sub_one_of_lt inside⟩) reached
    have leadEq : lead times delay =
        times.getD (min delay (times.length - 1)) 0 - times.getD 0 0 := by
      refine Tick.saturate_of_inRange ⟨?_, lag.2⟩
      exact le_trans (by decide) lag.1
    have lowest := (orderly.fit _ (getD_mem (Nat.lt_of_le_of_lt (Nat.zero_le _) shown))).1
    rw [leadEq, Tick.differenceOrLowest]
    split <;> omega
  next late => exact orderly.getD_le (by omega) shown

end DecodeClock

namespace Encoder

open VideoSchedule.Action Window DecodeClock Recorded

variable {B : Backend} {before middle after encoder : Encoder B.recorded} {gop : Gop}
  {admitted : List (Frame × B.Image)} {flight later : List (Handle × B.recorded.Promise)}
  {packets more : List CodedPicture} {ledger : Ledger B.recorded} {places rest : List Nat}
  {place delay : Nat} {handle : Handle}

/-! Places of the pictures in flight. -/

/-- A picture in flight was asked for at this place among the requests. Its encode order is not
greater: requests that are refused have a place, but leave their encode order to the next one. -/
def Placed (requests : List (Request B.Image)) (place : Nat)
    (entry : Handle × B.recorded.Promise) : Prop :=
  ∃ request, requests[place]? = some request ∧ request.picture = entry.2.1 ∧
    entry.2.1.encodeOrder ≤ place

structure Queued (encoder : Encoder B.recorded) (flight : List (Handle × B.recorded.Promise))
    (places : List Nat) : Prop where
  placed : List.Forall₂ (Placed encoder.backend.requests) places flight
  ordered : (places ++ [encoder.backend.requests.length]).Pairwise (· < ·)
  counted : encoder.backend.requests.length =
    encoder.scheduler.encodeOrder + flight.length + encoder.backend.refusals.length

theorem Placed.append {requests : List (Request B.Image)} {entry : Handle × B.recorded.Promise}
    (placed : Placed requests place entry) (more : List (Request B.Image)) :
    Placed (requests ++ more) place entry := by
  obtain ⟨request, listed, facts⟩ := placed
  exact ⟨request, getElem?_append_of_eq_some listed, facts⟩

theorem Queued.silent (queued : Queued before flight places)
    {allocated : List (Frame × Option B.Image)} {ended : List Fate}
    (adds : before.backend.Adds after.backend allocated [] [] ended)
    (same : after.scheduler.encodeOrder = before.scheduler.encodeOrder) :
    Queued after flight places := by
  have requests := adds.requests
  have refusals := adds.refusals
  rw [List.append_nil] at requests refusals
  constructor
  · rw [requests]
    exact queued.placed
  · rw [requests]
    exact queued.ordered
  · rw [requests, refusals, same]
    exact queued.counted

theorem pairwise_lt_concat {count : Nat} (ordered : (places ++ [count]).Pairwise (· < ·)) :
    (places ++ [count + 1]).Pairwise (· < ·) ∧
      (places ++ [count] ++ [count + 1]).Pairwise (· < ·) := by
  have below : ∀ place ∈ places ++ [count], place < count + 1 := by
    intro place member
    rcases List.mem_append.mp member with earlier | last
    · have less := (List.pairwise_append.mp ordered).2.2 place earlier count (by simp)
      omega
    · rw [List.mem_singleton.mp last]
      exact Nat.lt_succ_self _
  constructor
  · refine List.pairwise_append.mpr ⟨(List.pairwise_append.mp ordered).1, by simp, ?_⟩
    intro place member other isLast
    rw [List.mem_singleton.mp isLast]
    exact below place (List.mem_append_left _ member)
  · refine List.pairwise_append.mpr ⟨ordered, by simp, ?_⟩
    intro place member other isLast
    rw [List.mem_singleton.mp isLast]
    exact below place member

theorem Queued.issue (queued : Queued before flight places) {request : Request B.Image}
    {promise : B.recorded.Promise} (adds : before.backend.Adds after.backend [] [request] [] [])
    (promised : promise.1 = request.picture)
    (numbered : request.picture.encodeOrder = before.scheduler.encodeOrder + flight.length)
    (same : after.scheduler.encodeOrder = before.scheduler.encodeOrder) :
    Queued after (flight ++ [(handle, promise)]) (places ++ [before.backend.requests.length]) := by
  have counted := queued.counted
  have refusals := adds.refusals
  rw [List.append_nil] at refusals
  constructor
  · rw [adds.requests]
    refine List.rel_append (queued.placed.imp fun _ _ placed => placed.append _) ?_
    refine .cons ⟨request, List.getElem?_concat_length .., promised.symm, ?_⟩ .nil
    rw [promised, numbered]
    omega
  · rw [adds.requests, List.length_append, List.length_singleton]
    exact (pairwise_lt_concat queued.ordered).2
  · rw [adds.requests, refusals, same, List.length_append, List.length_append]
    simp only [List.length_singleton]
    omega

theorem Queued.refuse (queued : Queued before flight places) {request : Request B.Image}
    {ended : List Fate} (adds : before.backend.Adds after.backend [] [request] [request] ended)
    (same : after.scheduler.encodeOrder = before.scheduler.encodeOrder) :
    Queued after flight places := by
  have counted := queued.counted
  constructor
  · rw [adds.requests]
    exact queued.placed.imp fun _ _ placed => placed.append _
  · rw [adds.requests, List.length_append, List.length_singleton]
    exact (pairwise_lt_concat queued.ordered).1
  · rw [adds.requests, adds.refusals, same, List.length_append, List.length_append]
    simp only [List.length_singleton]
    omega

theorem Queued.deliver {front : Handle × B.recorded.Promise}
    (queued : Queued before (front :: flight) (place :: places))
    (first : front.2.1.encodeOrder = before.scheduler.encodeOrder) {ended : List Fate}
    (adds : before.backend.Adds after.backend [] [] [] ended)
    (advanced : after.scheduler.encodeOrder = front.2.1.encodeOrder + 1) :
    Queued after flight places := by
  have requests := adds.requests
  have refusals := adds.refusals
  have counted := queued.counted
  rw [List.append_nil] at requests refusals
  constructor
  · rw [requests]
    cases queued.placed with
    | cons _ others => exact others
  · rw [requests]
    exact (List.pairwise_cons.mp queued.ordered).2
  · rw [requests, refusals, advanced, first, counted, List.length_cons]
    omega

/-! Timestamps of the packets. -/

/-- No packet is to be decoded after it is shown, and none of those to come will be held up: the last
timestamp is that of a frame that comes before all of theirs. -/
structure Early (delay : Nat) (packets : List CodedPicture) (encoder : Encoder B.recorded)
    (places : List Nat) : Prop where
  packets : ∀ packet ∈ packets, packet.info.dts ≤ packet.info.pts
  mark : ∀ last, encoder.clock.lastDts = some last → ∃ index, index < encoder.times.length ∧
    last ≤ encoder.times.getD index 0 ∧
    ∀ place ∈ places ++ [encoder.backend.requests.length], index ≤ place - delay

theorem Early.go_on (early : Early delay packets before places) {new : List Int}
    (times : after.times = before.times ++ new) (same : after.clock.lastDts = before.clock.lastDts)
    (further : ∀ place ∈ rest ++ [after.backend.requests.length],
      ∃ earlier ∈ places ++ [before.backend.requests.length], earlier ≤ place) :
    Early delay packets after rest := by
  refine ⟨early.packets, ?_⟩
  intro last given
  rw [same] at given
  obtain ⟨index, inside, upTo, before⟩ := early.mark last given
  refine ⟨index, ?_, ?_, ?_⟩
  · rw [times, List.length_append]
    omega
  · rw [times, List.getD_append _ _ _ _ inside]
    exact upTo
  · intro place member
    obtain ⟨earlier, isEarlier, le⟩ := further place member
    have bound := before earlier isEarlier
    omega

theorem Early.stamp (early : Early delay packets before (place :: places))
    (ordered : (place :: places ++ [before.backend.requests.length]).Pairwise (· < ·))
    (shown : place - delay < before.times.length) {order : Nat} {pts : Int} {noDelay : Bool}
    (wants : before.clock.rawDts order pts noDelay ≤ before.times.getD (place - delay) 0)
    (shows : before.times.getD (place - delay) 0 ≤ pts)
    (orderly : Orderly before.times) (times : after.times = before.times)
    (requests : after.backend.requests = before.backend.requests)
    (last : after.clock.lastDts = some (before.clock.due order pts noDelay))
    (given : ∀ packet ∈ more, packet.info.dts = before.clock.due order pts noDelay ∧
      packet.info.pts = pts) : Early delay (packets ++ more) after places := by
  have due : before.clock.due order pts noDelay ≤ before.times.getD (place - delay) 0 := by
    rw [DecodeClock.due]
    cases lastEq : before.clock.lastDts with
    | none => exact wants
    | some time =>
        obtain ⟨index, _, upTo, earlier⟩ := early.mark time lastEq
        have place := orderly.getD_le (earlier place (by simp)) shown
        exact max_le (le_trans upTo place) wants
  constructor
  · intro packet member
    rcases List.mem_append.mp member with old | new
    · exact early.packets packet old
    · obtain ⟨dts, pts⟩ := given packet new
      rw [dts, pts]
      exact le_trans due shows
  · intro time isLast
    rw [last, Option.some.injEq] at isLast
    subst isLast
    refine ⟨place - delay, ?_, ?_, ?_⟩
    · rw [times]
      exact shown
    · rw [times]
      exact due
    · intro other member
      rw [requests] at member
      have after := (List.pairwise_cons.mp ordered).1 other member
      omega

/-- The slots of the ring that nothing else needs cover the encode orders that were left to another
picture. -/
def Affords (gop : Gop) (encoder : Encoder B.recorded) : Prop :=
  gop.bPerGroup = 0 ∨ encoder.backend.refusals.length + gop.maxBDepth ≤ 2 * gop.bPerGroup

/-- What a clock needs in order to be right: it hands back what it is given, or has all that it is
asked for. No more pictures are between admission and output than the pipeline and a group hold. -/
structure Reads (gop : Gop) (packets : List CodedPicture) (encoder : Encoder B.recorded)
    (flight : List (Handle × B.recorded.Promise)) : Prop where
  bPerGroup : encoder.scheduler.gop.bPerGroup = gop.bPerGroup
  maxBDepth : encoder.scheduler.gop.maxBDepth = gop.maxBDepth
  shallow : gop.maxBDepth ≤ gop.bPerGroup
  clock : gop.bPerGroup = 0 ∧ encoder.clock.outputDelay = 0 ∨
    Timed packets encoder flight ∧
      flight.length + unissuedIn encoder.window ≤ encoder.queue.capacity + gop.bPerGroup

theorem Chronicle.requested (chronicle : Chronicle { gop } admitted packets before flight)
    (layered : 0 < gop.bPerGroup → 0 < gop.maxBDepth) {request : Request B.Image}
    (listed : before.backend.requests[place]? = some request) :
    request.outline.Timely gop place ∧ request.picture.displayOrder < before.times.length ∧
      before.times.getD request.picture.displayOrder 0 = request.picture.pts := by
  have timely := chronicle.begins.timely layered listed
  obtain ⟨entry, admittedHere, _, pts, _⟩ :=
    chronicle.films.regards request (List.mem_of_getElem? listed)
  have there : before.times[request.picture.displayOrder]? = some request.picture.pts := by
    rw [chronicle.tells.times_eq, List.getElem?_map, admittedHere, pts]
    rfl
  refine ⟨timely, (List.getElem?_eq_some_iff.mp there).1, ?_⟩
  rw [List.getD_eq_getElem?_getD, there]
  rfl

theorem Reads.rawDts_le {front : Handle × B.recorded.Promise}
    (reads : Reads gop packets before (front :: flight))
    (chronicle : Chronicle { gop } admitted packets before (front :: flight))
    (layered : 0 < gop.bPerGroup → 0 < gop.maxBDepth)
    (queued : Queued before (front :: flight) (place :: places))
    (affords : Affords gop before) (orderly : Orderly before.times) :
    place - gop.maxBDepth < before.times.length ∧
      before.times.getD (place - gop.maxBDepth) 0 ≤ front.2.1.pts ∧
      before.clock.rawDts front.2.1.encodeOrder front.2.1.pts before.caps.undelayed ≤
        before.times.getD (place - gop.maxBDepth) 0 := by
  cases queued.placed with
  | cons placed _ =>
      obtain ⟨request, listed, pictureEq, upTo⟩ := placed
      obtain ⟨⟨late, shallow, straight⟩, inside, shows⟩ := chronicle.requested layered listed
      rw [pictureEq] at inside shows
      have outlined : request.outline.displayOrder = front.2.1.displayOrder := by
        rw [← pictureEq]
        rfl
      rw [outlined] at late straight
      have back : place - gop.maxBDepth ≤ front.2.1.displayOrder := by omega
      have shown := Nat.lt_of_le_of_lt back inside
      refine ⟨shown, ?_, ?_⟩
      · rw [← shows]
        exact orderly.getD_le back inside
      · rcases reads.clock with ⟨none, undelayed⟩ | ⟨timed, crowd⟩
        · have same : place - gop.maxBDepth = front.2.1.displayOrder := by
            have deep := reads.shallow
            have exact := straight none
            omega
          rw [same, shows, rawDts, if_pos (Or.inr undelayed)]
        · have counted := queued.counted
          have entered := timed.counted
          have delay := timed.geared.decodeDelay
          have reorders := timed.geared.reorders
          rw [reads.maxBDepth] at delay
          rw [reads.bPerGroup] at reorders
          have few := affords.resolve_left (by omega)
          rw [List.length_cons] at counted crowd
          have asked : before.backend.requests ≠ [] := by
            intro nothing
            rw [nothing, List.length_nil] at counted
            omega
          have order := chronicle.flies.front_order
          rw [timed.rawDts_eq asked (by omega) (by rw [reads.bPerGroup]; omega), delay]
          exact orderly.wanted_le upTo (by omega) shown

/-! Moves. -/

theorem Move.crowd (move : Move before flight more after later) :
    later.length + unissuedIn after.window ≤ flight.length + unissuedIn before.window := by
  have fewer := move.unissued_le
  cases move with
  | issue core _ picks answers =>
      have counted := core.unissued_picked picks (before.scheduler.encodeOrderFor flight.length)
      cases answers
      rw [List.length_append, List.length_singleton]
      dsimp only
      omega
  | refuse => exact Nat.add_le_add_left fewer _
  | deliver =>
      rw [List.length_cons]
      omega
  | finish => exact Nat.add_le_add_left fewer _

theorem Reads.move (reads : Reads gop packets before flight)
    (chronicle : Chronicle { gop } admitted packets before flight)
    (move : Move before flight more after later) : Reads gop (packets ++ more) after later := by
  have setting := move.steady.toSetting
  refine ⟨setting.bPerGroup.trans reads.bPerGroup, setting.maxBDepth.trans reads.maxBDepth,
    reads.shallow, ?_⟩
  rw [setting.outputDelay, setting.capacity]
  refine reads.clock.imp id fun ⟨timed, crowd⟩ => ?_
  exact ⟨timed.move chronicle.tells chronicle.flies move, Nat.le_trans move.crowd crowd⟩

def Prompt (gop : Gop) (packets : List CodedPicture) (encoder : Encoder B.recorded)
    (flight : List (Handle × B.recorded.Promise)) : Prop :=
  ∃ places, Queued encoder flight places ∧
    (Affords gop encoder → Orderly encoder.times → Early gop.maxBDepth packets encoder places)

theorem Affords.earlier {refused : List (Request B.Image)} (affords : Affords gop after)
    (refusals : after.backend.refusals = before.backend.refusals ++ refused) :
    Affords gop before := by
  refine affords.imp id fun few => ?_
  rw [refusals, List.length_append] at few
  omega

theorem mem_of_mem_concat {count : Nat} (member : place ∈ places ++ [count]) :
    place ∈ places ∨ place = count := by
  rcases List.mem_append.mp member with earlier | last
  · exact Or.inl earlier
  · exact Or.inr (List.mem_singleton.mp last)

theorem Prompt.go_on (queued : Queued after later rest)
    (early : Affords gop before → Orderly before.times → Early gop.maxBDepth packets before places)
    {allocated : List (Frame × Option B.Image)} {requested refused : List (Request B.Image)}
    {ended : List Fate} (adds : before.backend.Adds after.backend allocated requested refused ended)
    (same : after.clock.lastDts = before.clock.lastDts)
    (further : ∀ place ∈ rest ++ [after.backend.requests.length],
      ∃ earlier ∈ places ++ [before.backend.requests.length], earlier ≤ place) :
    Prompt gop packets after later := by
  have timesEq : after.times = before.times ++ allocated.map fun entry => entry.1.pts := by
    rw [times, adds.allocations, List.map_append, times]
  refine ⟨rest, queued, fun affords orderly => ?_⟩
  rw [timesEq] at orderly
  exact (early (affords.earlier adds.refusals) orderly.of_append).go_on timesEq same further

theorem Prompt.silent (prompt : Prompt gop packets before flight)
    {allocated : List (Frame × Option B.Image)} {ended : List Fate}
    (adds : before.backend.Adds after.backend allocated [] [] ended)
    (ordered : after.scheduler.encodeOrder = before.scheduler.encodeOrder)
    (same : after.clock.lastDts = before.clock.lastDts) : Prompt gop packets after flight := by
  obtain ⟨places, queued, early⟩ := prompt
  refine Prompt.go_on (queued.silent adds ordered) early adds same ?_
  rw [adds.requests, List.append_nil]
  exact fun place member => ⟨place, member, le_rfl⟩

theorem Prompt.issue (prompt : Prompt gop packets before flight) {request : Request B.Image}
    {promise : B.recorded.Promise} (adds : before.backend.Adds after.backend [] [request] [] [])
    (promised : promise.1 = request.picture)
    (numbered : request.picture.encodeOrder = before.scheduler.encodeOrder + flight.length)
    (ordered : after.scheduler.encodeOrder = before.scheduler.encodeOrder)
    (same : after.clock.lastDts = before.clock.lastDts) :
    Prompt gop packets after (flight ++ [(handle, promise)]) := by
  obtain ⟨places, queued, early⟩ := prompt
  refine Prompt.go_on (queued.issue adds promised numbered ordered) early adds same ?_
  intro place member
  rw [adds.requests, List.length_append, List.length_singleton] at member
  rcases mem_of_mem_concat member with earlier | rfl
  · exact ⟨place, earlier, le_rfl⟩
  · exact ⟨_, List.mem_append_right _ (List.mem_singleton_self _), Nat.le_succ _⟩

theorem Prompt.refuse (prompt : Prompt gop packets before flight) {request : Request B.Image}
    {ended : List Fate} (adds : before.backend.Adds after.backend [] [request] [request] ended)
    (ordered : after.scheduler.encodeOrder = before.scheduler.encodeOrder)
    (same : after.clock.lastDts = before.clock.lastDts) : Prompt gop packets after flight := by
  obtain ⟨places, queued, early⟩ := prompt
  refine Prompt.go_on (queued.refuse adds ordered) early adds same ?_
  intro place member
  rw [adds.requests, List.length_append, List.length_singleton] at member
  rcases mem_of_mem_concat member with earlier | rfl
  · exact ⟨place, List.mem_append_left _ earlier, le_rfl⟩
  · exact ⟨_, List.mem_append_right _ (List.mem_singleton_self _), Nat.le_succ _⟩

theorem Prompt.deliver_failed {front : Handle × B.recorded.Promise}
    (prompt : Prompt gop packets before (front :: flight))
    (first : front.2.1.encodeOrder = before.scheduler.encodeOrder) {ended : List Fate}
    (adds : before.backend.Adds after.backend [] [] [] ended)
    (advanced : after.scheduler.encodeOrder = front.2.1.encodeOrder + 1)
    (same : after.clock.lastDts = before.clock.lastDts) : Prompt gop packets after flight := by
  obtain ⟨places, queued, early⟩ := prompt
  cases queued.placed with
  | @cons place _ places _ _ _ =>
      refine Prompt.go_on (queued.deliver first adds advanced) early adds same ?_
      rw [adds.requests, List.append_nil]
      exact fun place member => ⟨place, List.mem_cons_of_mem _ member, le_rfl⟩

theorem Prompt.deliver {front : Handle × B.recorded.Promise}
    (prompt : Prompt gop packets before (front :: flight))
    (reads : Reads gop packets before (front :: flight))
    (chronicle : Chronicle { gop } admitted packets before (front :: flight))
    (layered : 0 < gop.bPerGroup → 0 < gop.maxBDepth) {ended : List Fate}
    (adds : before.backend.Adds after.backend [] [] [] ended)
    (advanced : after.scheduler.encodeOrder = front.2.1.encodeOrder + 1)
    (last : after.clock.lastDts =
      some (before.clock.due front.2.1.encodeOrder front.2.1.pts before.caps.undelayed))
    (given : ∀ packet ∈ more,
      packet.info.dts = before.clock.due front.2.1.encodeOrder front.2.1.pts before.caps.undelayed ∧
        packet.info.pts = front.2.1.pts) : Prompt gop (packets ++ more) after flight := by
  obtain ⟨places, queued, early⟩ := prompt
  have timesEq := times_of_adds adds
  have requestsEq := adds.requests
  rw [List.append_nil] at requestsEq
  cases queued.placed with
  | @cons place _ places _ _ _ =>
      refine ⟨places, queued.deliver chronicle.flies.front_order adds advanced, ?_⟩
      intro affords orderly
      rw [timesEq] at orderly
      have affordsBefore := affords.earlier adds.refusals
      obtain ⟨shown, shows, wants⟩ :=
        reads.rawDts_le chronicle layered queued affordsBefore orderly
      exact (early affordsBefore orderly).stamp queued.ordered shown wants shows orderly timesEq
        requestsEq last given

theorem Prompt.move (prompt : Prompt gop packets before flight)
    (reads : Reads gop packets before flight)
    (chronicle : Chronicle { gop } admitted packets before flight)
    (layered : 0 < gop.bPerGroup → 0 < gop.maxBDepth)
    (move : Move before flight more after later) : Prompt gop (packets ++ more) after later := by
  cases move with
  | issue core free picks answers =>
      obtain ⟨schedules, pickable⟩ := core.picked picks
      obtain ⟨old, found, unissued⟩ := pickable.waiting
      cases answers with
      | accepted asks answer =>
          obtain ⟨adds, promised⟩ := issue_adds answer
          obtain ⟨_, numbered⟩ := aloft_issued pickable.tidy found unissued asks
          rw [List.append_nil]
          exact prompt.issue adds promised numbered schedules.encodeOrder rfl
  | refuse core picks answers =>
      obtain ⟨schedules, _⟩ := core.picked picks
      cases answers with
      | refused asks answer cleared =>
          rw [List.append_nil]
          exact prompt.refuse (refused_adds _ answer) schedules.encodeOrder rfl
  | @deliver _ front _ _ picture encodeOrder _ _ core found numbered delivers =>
      obtain ⟨_, foundAloft, _, _, info⟩ := chronicle.flies.aloft front (by simp)
      cases find?_unique found foundAloft
      have order : front.2.1.encodeOrder = encodeOrder := by
        rw [← info, Picture.info, numbered]
        rfl
      have pts : front.2.1.pts = picture.pts := by
        rw [← info]
        rfl
      cases delivers with
      | failed foundHere _ answer cleared =>
          rw [packetsOf_error, List.append_nil]
          exact prompt.deliver_failed chronicle.flies.front_order (collected_adds _ answer)
            (by rw [order]; rfl) rfl
      | @coded _ _ _ bytes _ _ foundHere _ numberedHere answer cleared =>
          cases find?_unique found foundHere
          cases numbered.symm.trans numberedHere
          refine prompt.deliver reads chronicle layered (collected_adds _ answer)
            (by rw [order]; rfl) (by rw [order, pts]; rfl) ?_
          intro packet member
          rw [packetsOf_delivered] at member
          split at member
          · cases member
          · rw [List.mem_singleton.mp member, order, pts]
            exact ⟨rfl, rfl⟩
  | finish core ended issued finishes =>
      cases finishes with
      | @retired gone =>
          rw [List.append_nil]
          exact prompt.silent (freed_adds (B := B) gone) rfl rfl

theorem Prompt.moves (prompt : Prompt gop packets before flight)
    (reads : Reads gop packets before flight)
    (chronicle : Chronicle { gop } admitted packets before flight)
    (layered : 0 < gop.bPerGroup → 0 < gop.maxBDepth)
    (moves : Moves before flight more after later) : Prompt gop (packets ++ more) after later := by
  have kept : Prompt gop (packets ++ more) after later ∧ Reads gop (packets ++ more) after later := by
    induction moves with
    | none =>
        rw [List.append_nil]
        exact ⟨prompt, reads⟩
    | next moves move ih =>
        have chronicleNow := chronicle.moves moves
        rw [← List.append_assoc]
        exact ⟨ih.1.move ih.2 chronicleNow layered move, ih.2.move chronicleNow move⟩
  exact kept.1

/-! Courses. -/

theorem Prompt.start {start : Recorded B} (nothing : start.calls = []) (config : Config)
    (mode : BlockingMode) :
    Prompt gop [] (opened (B := B.recorded) start gop config mode) [] := by
  have requestsEq : start.requests = [] := by simp [Recorded.requests, nothing]
  have refusalsEq : start.refusals = [] := by simp [Recorded.refusals, nothing]
  refine ⟨[], ⟨.nil, by simp, ?_⟩, fun _ _ => ⟨by simp, ?_⟩⟩
  · dsimp only [opened]
    rw [requestsEq, refusalsEq]
    rfl
  · intro last given
    cases given

structure Wound (gop : Gop) (opening : Encoder B.recorded) : Prop where
  groups : opening.scheduler.gop = gop
  shallow : gop.maxBDepth ≤ gop.bPerGroup
  clock : gop.bPerGroup = 0 ∧ opening.clock.outputDelay = 0 ∨
    opening.Settles ∧ Timed [] opening opening.queue.promises

section

variable {opening : Encoder B.recorded} {accepted : List Frame}

theorem Entry.lastDts (entry : Entry before middle) :
    middle.clock.lastDts = before.clock.lastDts := by
  cases entry with
  | nothing => rfl
  | frame => rfl
  | ending =>
      obtain ⟨offset, clock⟩ := signalEnd_clock before
      rw [clock]

theorem Course.reads (course : Course SameCalls opening accepted packets before)
    (starts : Chronicle { gop } [] [] opening opening.queue.promises)
    (empty : opening.waiting = []) (wound : Wound gop opening) (alive : before.failed = false)
    (sound : before.Sound ledger) (entry : Entry before middle) :
    Reads gop packets middle middle.queue.promises := by
  have setting := course.setting.trans entry.steady.toSetting
  refine ⟨?_, ?_, wound.shallow, ?_⟩
  · rw [setting.bPerGroup, wound.groups]
  · rw [setting.maxBDepth, wound.groups]
  · rcases wound.clock with ⟨none, straight⟩ | ⟨settles, timed⟩
    · exact Or.inl ⟨none, setting.outputDelay.trans straight⟩
    · right
      obtain ⟨_, chronicle, _⟩ := course.chronicle starts empty alive
      have timedNow := course.timed starts empty settles timed alive
      have settlesNow := course.settles settles
      have further := timedNow.strides settlesNow chronicle sound entry .none
      rw [List.append_nil] at further
      have few := settlesNow.few
      have one := entry.unissued
      have free := settlesNow.isFull sound
      rw [OutputQueue.isFull, decide_eq_false_iff_not, Nat.not_le, OutputQueue.size] at free
      rw [course.setting.bPerGroup, wound.groups] at few
      refine ⟨further, ?_⟩
      rw [entry.queue]
      omega

theorem Course.prompt (course : Course SameCalls opening accepted packets encoder)
    (starts : Chronicle { gop } [] [] opening opening.queue.promises)
    (empty : opening.waiting = []) (wound : Wound gop opening)
    (layered : 0 < gop.bPerGroup → 0 < gop.maxBDepth)
    (prompt : Prompt gop [] opening opening.queue.promises) (alive : encoder.failed = false) :
    Prompt gop packets encoder encoder.queue.promises := by
  induction course with
  | start => exact prompt
  | step course sound strode ih =>
      cases strode with
      | dead failed =>
          rw [failed] at alive
          cases alive
      | fatal => cases alive
      | alive aliveBefore strides survives =>
          obtain ⟨_, chronicle, _⟩ := course.chronicle starts empty aliveBefore
          cases strides with
          | lost _ failed => cases survives _ failed
          | @went middle _ _ entry picks _ last =>
              have reads := course.reads starts empty wound aliveBefore sound entry
              obtain ⟨_, chronicleNow, _⟩ := chronicle.strides sound entry .none
              rw [List.append_nil] at chronicleNow
              obtain ⟨_, adds⟩ := entry.adds
              have entered := (ih aliveBefore).silent adds entry.encodeOrder entry.lastDts
              rw [← entry.queue] at entered
              exact entered.moves reads chronicleNow layered (picks.last last)
  | accept _ _ aliveBefore _ ih => exact (ih aliveBefore).silent (.refl _) rfl rfl
  | drain _ ih => exact (ih alive).silent (.refl _) rfl rfl
  | code _ _ ih => exact (ih alive).silent (.refl _) rfl rfl
  | abandon _ failed =>
      rw [failed] at alive
      cases alive
  | progress _ moved ih => exact (ih alive).silent (adds_of_calls moved) rfl rfl

end

theorem orderly_times {admitted : List (Frame × B.Image)} {accepted : List Frame}
    (orderly : Orderly (accepted.map Frame.pts))
    (all : admitted.map Prod.fst ++ encoder.waiting = accepted)
    (times : encoder.times = admitted.map fun entry => entry.1.pts) : Orderly encoder.times := by
  rw [← all, List.map_append, List.map_map] at orderly
  rw [times]
  exact orderly.of_append

variable {start : Recorded B} {config : Config} {mode : BlockingMode} {opening : Encoder B.recorded}
  {trail : List (Call × Except EncodeError Answer)}

/-- No packet is to be decoded after it is shown, if timestamps do not go back. With B-pictures this
needs a session that waits for its pictures, or has one at a time, and no more pictures that the
backend refused than the ring has slots to spare. -/
theorem Calls.decode_first (nothing : start.calls = [])
    (created : ((create (B := B.recorded) start config mode : Action Unit (Encoder B.recorded))
      ()).result = .ok opening)
    (calls : Calls SameCalls opening trail encoder) (alive : encoder.failed = false)
    (delayed : encoder.caps.undelayed = false)
    (orderly : Orderly ((submissions trail).map Frame.pts))
    (affords : encoder.scheduler.gop.bPerGroup = 0 ∨ encoder.Paced ∧
      encoder.backend.refusals.length + encoder.scheduler.gop.maxBDepth ≤
        2 * encoder.scheduler.gop.bPerGroup) :
    ∀ packet ∈ deliveries trail, packet.info.dts ≤ packet.info.pts := by
  obtain ⟨valid, gop, made, rfl⟩ := create_eq_ok created
  have reachable : Reachable (B := B.recorded) start SameCalls (opened start gop config mode) :=
    .created config mode created
  obtain ⟨_, course⟩ := calls.course reachable.invariant rfl
  have setting := course.setting
  rw [setting.caps] at delayed
  rw [Paced, setting.mode, setting.caps, setting.bPerGroup, setting.maxBDepth] at affords
  have starts := Chronicle.start nothing valid made mode
  have shallow := (Gop.bounds_of_ofConfig? made).1
  have wound : Wound gop (opened (B := B.recorded) start gop config mode) := by
    refine ⟨rfl, shallow, ?_⟩
    by_cases none : gop.bPerGroup = 0
    · exact Or.inl ⟨none, none⟩
    · have paced := (affords.resolve_left none).1
      have timed := Timed.start nothing valid made mode (Nat.pos_of_ne_zero none) delayed
      exact Or.inr ⟨settles_opened valid made paced, timed⟩
  obtain ⟨admitted, chronicle, all⟩ := course.chronicle starts rfl alive
  obtain ⟨_, _, early⟩ := course.prompt starts rfl wound (Gop.layered_of_ofConfig? valid made)
    (Prompt.start nothing config mode) alive
  have packets := (early (affords.imp id And.right)
    (orderly_times orderly all chronicle.tells.times_eq)).packets
  exact fun packet member => packets packet (List.mem_append_left _ member)

def frames (count : Nat) : List Call :=
  (List.range count).map fun index => .encode { pts := 10 * index }

/-- Groups of two B-pictures, and a backend that refuses one of them. -/
def choosy : Encoder Backend.simulated.recorded :=
  onDevice { Device.create .manual none with failIssue := some (2, false) } {} .blocking

theorem choosy_created :
    ((create (B := Backend.simulated.recorded) choosy.backend {} .blocking :
      Action Unit (Encoder Backend.simulated.recorded)) ()).result = .ok choosy := rfl

def refusedOne : List (Call × Except EncodeError Answer) × Encoder Backend.simulated.recorded :=
  performAll (frames 8 ++ List.replicate 8 .receive) choosy

theorem decode_first_refused :
    (deliveries refusedOne.1).map (fun packet => (packet.info.dts, packet.info.pts)) =
      [(-10, 0), (0, 30), (10, 10), (20, 60), (30, 40)] ∧
    refusedOne.2.backend.refusals.length = 1 ∧
      ∀ packet ∈ deliveries refusedOne.1, packet.info.dts ≤ packet.info.pts := by
  have ran : Calls SameCalls choosy refusedOne.1 refusedOne.2 := calls_performAll _ _
  have timesEq : (submissions refusedOne.1).map Frame.pts = [0, 10, 20, 30, 40, 50, 60, 70] := by
    decide +kernel
  have orderly : Orderly ((submissions refusedOne.1).map Frame.pts) := by
    rw [timesEq]
    refine ⟨by decide, by decide, ?_⟩
    rintro _ _ ⟨⟩ ⟨⟩
    decide
  refine ⟨by decide +kernel, by decide +kernel, ?_⟩
  exact Calls.decode_first rfl choosy_created ran (by decide +kernel) (by decide +kernel) orderly
    (.inr ⟨.inl (by decide +kernel), by decide +kernel⟩)

/-- What a run has to keep to, and yet a packet is to be decoded after it is shown. -/
structure Late {B : Backend} (start : Recorded B) (config : Config) (mode : BlockingMode)
    (trail : List (Call × Except EncodeError Answer)) (encoder : Encoder B.recorded) : Prop where
  nothing : start.calls = []
  ran : ∃ opening : Encoder B.recorded,
    ((create (B := B.recorded) start config mode : Action Unit (Encoder B.recorded)) ()).result =
      .ok opening ∧ Calls SameCalls opening trail encoder
  alive : encoder.failed = false
  delayed : encoder.caps.undelayed = false
  orderly : Orderly ((submissions trail).map Frame.pts)
  late : ∃ packet ∈ deliveries trail, packet.info.pts < packet.info.dts

theorem Calls.completes {opening encoder : Encoder Backend.simulated.recorded}
    {trail : List (Call × Except EncodeError Answer)}
    (calls : Calls SameCalls opening trail encoder) (displayOrder : Nat) :
    Calls SameCalls opening trail (completes displayOrder encoder) :=
  calls.progress rfl

/-- Groups of one B-picture, one picture in flight, and nobody waits. -/
def hasty : Encoder Backend.simulated.recorded :=
  onDevice (Device.create .manual none) { maxBFrames := 1, asyncDepth := 1 } .nonBlocking

def ahead : List (Call × Except EncodeError Answer) × Encoder Backend.simulated.recorded :=
  performAll (frames 6 ++ [.receive]) hasty

def further : List (Call × Except EncodeError Answer) × Encoder Backend.simulated.recorded :=
  performAll [.receive, .receive] (completes 0 ahead.2)

def hurried : List (Call × Except EncodeError Answer) × Encoder Backend.simulated.recorded :=
  performAll [.receive] (completes 2 further.2)

theorem hurried_calls : Calls SameCalls hasty (ahead.1 ++ further.1 ++ hurried.1) hurried.2 := by
  have first : Calls SameCalls hasty ahead.1 ahead.2 := calls_performAll _ _
  have second : Calls SameCalls hasty (ahead.1 ++ further.1) further.2 :=
    (first.completes 0).performAll _
  exact (second.completes 2).performAll _

/-- One picture at a time, and a backend that refuses the first two frames. -/
def unlucky : Encoder Backend.simulated.faulty.recorded :=
  opened (B := Backend.simulated.faulty.recorded)
    { inner := {
        inner := Device.create .immediate none
        plan := [⟨.issue, 0, .outOfResources⟩, ⟨.issue, 1, .outOfResources⟩] } }
    ((Gop.ofConfig? { maxBFrames := 1, asyncDepth := 1 } {}).getD default)
    { maxBFrames := 1, asyncDepth := 1 } .blocking

def refusedTwo :
    List (Call × Except EncodeError Answer) × Encoder Backend.simulated.faulty.recorded :=
  performAll (frames 5 ++ List.replicate 3 .receive ++ [.drain] ++ List.replicate 3 .receive) unlucky

/-- A session that does not wait takes in so many frames that the ring has lost the timestamp of a
picture when that is output; and so does one whose backend refuses more pictures than the ring has
slots to spare. -/
theorem decoded_late :
    Late (B := Backend.simulated) hasty.backend { maxBFrames := 1, asyncDepth := 1 } .nonBlocking
        (ahead.1 ++ further.1 ++ hurried.1) hurried.2 ∧
      Late (B := Backend.simulated.faulty) unlucky.backend { maxBFrames := 1, asyncDepth := 1 }
        .blocking refusedTwo.1 refusedTwo.2 := by
  have sixTimes : (submissions (ahead.1 ++ further.1 ++ hurried.1)).map Frame.pts =
      [0, 10, 20, 30, 40, 50] := by
    decide +kernel
  have fiveTimes : (submissions refusedTwo.1).map Frame.pts = [0, 10, 20, 30, 40] := by
    decide +kernel
  constructor
  · refine ⟨rfl, ⟨hasty, rfl, hurried_calls⟩, by decide +kernel, by decide +kernel, ?_,
      by decide +kernel⟩
    rw [sixTimes]
    refine ⟨by decide, by decide, ?_⟩
    rintro _ _ ⟨⟩ ⟨⟩
    decide
  · refine ⟨rfl, ⟨unlucky, rfl, calls_performAll _ _⟩, by decide +kernel, by decide +kernel, ?_,
      by decide +kernel⟩
    rw [fiveTimes]
    refine ⟨by decide, by decide, ?_⟩
    rintro _ _ ⟨⟩ ⟨⟩
    decide

end Encoder

end VideoSchedule

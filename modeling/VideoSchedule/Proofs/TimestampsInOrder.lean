import VideoSchedule.Proofs.Presentation

/-!
Decode timestamps without B-pictures. The clock hands back the presentation timestamps then, and the
pictures are encoded in the order of their frames; so the timestamps that are given out are exact here
too, and follow the same rule as with B-pictures.
-/

namespace VideoSchedule.Encoder

open VideoSchedule.Action Window DecodeClock Recorded

variable {B : Backend} {before middle after encoder : Encoder B.recorded} {gop : Gop}
  {admitted : List (Frame × B.Image)} {flight later : List (Handle × B.recorded.Promise)}
  {packets more : List CodedPicture} {accepted : List Frame} {ledger : Ledger B.recorded}

structure Straight (packets : List CodedPicture) (encoder : Encoder B.recorded) : Prop where
  undelayed : encoder.clock.outputDelay = 0
  stamped : encoder.backend.refusals = [] →
    Stamped encoder.times 0 encoder.outputs encoder.clock.lastDts (packets.map CodedPicture.info)

theorem Chronicle.straight_time (chronicle : Chronicle { gop } admitted packets before flight)
    (none : gop.bPerGroup = 0) (taken : before.backend.refusals = []) {request : Request B.Image}
    (asked : request ∈ before.backend.requests) :
    request.picture.encodeOrder < before.times.length ∧
      before.times.getD request.picture.encodeOrder 0 = request.picture.pts := by
  obtain ⟨place, listed⟩ := List.mem_iff_getElem?.mp asked
  obtain ⟨timely, inside, shows⟩ :=
    chronicle.requested (fun some => absurd none (Nat.ne_of_gt some)) listed
  have numbers := congrArg (·[place]?) (chronicle.flies.requested taken)
  have order : request.picture.encodeOrder = place := by
    simp only [List.getElem?_map, listed, Option.map_some] at numbers
    obtain ⟨_, same⟩ := List.getElem?_eq_some_iff.mp numbers.symm
    rw [← same, List.getElem_range]
  have shown : request.picture.displayOrder = place := timely.straight none
  rw [order, ← shown]
  exact ⟨inside, shows⟩

theorem Chronicle.straight_output (chronicle : Chronicle { gop } admitted packets before flight)
    (none : gop.bPerGroup = 0) (taken : before.backend.refusals = []) {order : Nat}
    (isOutput : order ∈ before.outputs) : order < before.times.length := by
  obtain ⟨fate, member, same⟩ := List.mem_filterMap.mp isOutput
  obtain ⟨_, _, rfl⟩ := Option.map_eq_some_iff.mp same
  have listed := chronicle.accounts.settled.subset
    (List.mem_append_left _ (List.mem_map_of_mem (f := Prod.fst) member))
  obtain ⟨request, asked, picture⟩ := List.mem_map.mp listed
  rw [← picture]
  exact (chronicle.straight_time none taken asked).1

theorem Straight.of_adds (straight : Straight packets before)
    {requested refused : List (Request B.Image)} {ended : List Fate}
    (adds : before.backend.Adds after.backend [] requested refused ended) {last : Option Int}
    (clock : after.clock = { before.clock with lastDts := last })
    (stamped : before.backend.refusals = [] → refused = [] →
      Stamped before.times 0
        (before.outputs ++ ended.filterMap fun fate => fate.2.map fun _ => fate.1.encodeOrder) last
        ((packets ++ more).map CodedPicture.info)) : Straight (packets ++ more) after := by
  constructor
  · rw [clock]
    exact straight.undelayed
  · intro taken
    rw [adds.refusals, List.append_eq_nil_iff] at taken
    rw [times_of_adds adds, outputs_of_adds adds, clock]
    exact stamped taken.1 taken.2

theorem Straight.quiet (straight : Straight packets before)
    {requested refused : List (Request B.Image)} {ended : List Fate}
    (adds : before.backend.Adds after.backend [] requested refused ended)
    (clock : after.clock = before.clock)
    (silent : refused = [] → ended.filterMap (fun fate => fate.2.map fun _ => fate.1.encodeOrder) = []) :
    Straight (packets ++ []) after := by
  have same : after.clock = { before.clock with lastDts := before.clock.lastDts } := clock
  refine straight.of_adds adds same fun taken none => ?_
  rw [silent none, List.append_nil, List.append_nil]
  exact straight.stamped taken

theorem Straight.move (straight : Straight packets before)
    (chronicle : Chronicle { gop } admitted packets before flight) (none : gop.bPerGroup = 0)
    (move : Move before flight more after later) : Straight (packets ++ more) after := by
  cases move with
  | issue _ _ _ answers =>
      cases answers with
      | accepted _ answer => exact straight.quiet (issue_adds answer).1 rfl fun _ => rfl
  | refuse _ _ answers =>
      cases answers with
      | refused _ answer =>
          exact straight.quiet (refused_adds (B := B) _ answer) rfl fun taken => by cases taken
  | @deliver _ front _ _ picture encodeOrder _ _ core found numbered delivers =>
      cases delivers with
      | failed _ _ answer => exact straight.quiet (collected_adds (B := B) _ answer) rfl fun _ => rfl
      | @coded _ _ _ bytes _ _ foundHere _ numberedHere answer =>
          cases find?_unique found foundHere
          cases numbered.symm.trans numberedHere
          refine straight.of_adds (collected_adds (B := B) _ answer) rfl fun taken _ => ?_
          obtain ⟨_, foundAloft, _, _, info⟩ := chronicle.flies.aloft front (by simp)
          cases find?_unique found foundAloft
          have order : front.2.1.encodeOrder = encodeOrder := by
            rw [← info, Picture.info, numbered]
            rfl
          have shown : picture.pts = front.2.1.pts := by
            rw [← info]
            rfl
          have flying : front.2.1 ∈ (front :: later).map fun entry => entry.2.1 := by simp
          have listed := chronicle.accounts.settled.subset (List.mem_append_right _ flying)
          obtain ⟨request, asked, same⟩ := List.mem_map.mp listed
          have wants := (chronicle.straight_time none taken asked).2
          rw [same] at wants
          have raw : before.clock.rawDts front.2.1.encodeOrder picture.pts before.caps.undelayed =
              wanted before.times 0 front.2.1.encodeOrder := by
            rw [rawDts, if_pos (Or.inr straight.undelayed), wanted, if_neg (Nat.not_lt_zero _),
              Nat.sub_zero, wants, shown]
          have next : [((front.2.1, some bytes) : Fate)].filterMap
              (fun fate => fate.2.map fun _ => fate.1.encodeOrder) = [front.2.1.encodeOrder] := rfl
          rw [next, ← order]
          exact chronicle.flies.stamp taken (straight.stamped taken) raw rfl rfl bytes
  | finish _ _ _ finishes =>
      cases finishes with
      | retired => exact straight.quiet (freed_adds (B := B) _) rfl fun _ => rfl

theorem Straight.moves (straight : Straight packets before)
    (chronicle : Chronicle { gop } admitted packets before flight) (none : gop.bPerGroup = 0)
    (moves : Moves before flight more after later) : Straight (packets ++ more) after := by
  induction moves with
  | none => rwa [List.append_nil]
  | next moves move ih =>
      rw [← List.append_assoc]
      exact ih.move (chronicle.moves moves) none move

theorem Straight.frame (straight : Straight packets before)
    (chronicle : Chronicle { gop } admitted packets before flight) (none : gop.bPerGroup = 0)
    {entry : Frame × Option B.Image} (adds : before.backend.Adds after.backend [entry] [] [] [])
    (undelayed : after.clock.outputDelay = before.clock.outputDelay)
    (last : after.clock.lastDts = before.clock.lastDts) : Straight packets after := by
  refine ⟨undelayed.trans straight.undelayed, fun taken => ?_⟩
  rw [adds.refusals, List.append_nil] at taken
  have timesEq : after.times = before.times ++ [entry.1.pts] := by
    rw [times, adds.allocations, List.map_append, List.map_singleton, times]
  rw [timesEq, outputs_of_adds adds, List.filterMap_nil, List.append_nil, last]
  refine (straight.stamped taken).concat_time (fun order isOutput => ?_) _
  have inside := chronicle.straight_output none taken isOutput
  exact ⟨Nat.lt_of_le_of_lt (Nat.zero_le _) inside, inside⟩

theorem Straight.congr (straight : Straight packets before)
    (adds : before.backend.Adds after.backend [] [] [] [])
    (undelayed : after.clock.outputDelay = before.clock.outputDelay)
    (last : after.clock.lastDts = before.clock.lastDts) : Straight packets after := by
  refine ⟨undelayed.trans straight.undelayed, fun taken => ?_⟩
  rw [adds.refusals, List.append_nil] at taken
  rw [times_of_adds adds, outputs_of_adds adds, List.filterMap_nil, List.append_nil, last]
  exact straight.stamped taken

theorem Straight.entry (straight : Straight packets before)
    (chronicle : Chronicle { gop } admitted packets before flight) (none : gop.bPerGroup = 0)
    (entry : Entry before after) : Straight packets after := by
  have undelayed := entry.steady.outputDelay
  have last := entry.lastDts
  cases entry with
  | nothing => exact straight
  | frame _ answer => exact straight.frame chronicle none (allocated_adds answer) undelayed last
  | ending => exact straight.congr (.refl _) undelayed last

section

variable {start : Recorded B} {config : Config} {mode : BlockingMode} {opening : Encoder B.recorded}

theorem Course.straight (course : Course SameCalls opening accepted packets encoder)
    (starts : Chronicle { gop } [] [] opening opening.queue.promises) (empty : opening.waiting = [])
    (none : gop.bPerGroup = 0) (straight : Straight [] opening) (alive : encoder.failed = false) :
    Straight packets encoder := by
  induction course with
  | start => exact straight
  | step course sound strode ih =>
      cases strode with
      | dead failed => cases alive.symm.trans failed
      | fatal => cases alive
      | alive aliveBefore strides survives =>
          obtain ⟨_, chronicle, _⟩ := course.chronicle starts empty aliveBefore
          cases strides with
          | lost _ failed => cases survives _ failed
          | went entry picks _ last =>
              obtain ⟨_, chronicleNow, _⟩ := chronicle.strides sound entry .none
              rw [List.append_nil] at chronicleNow
              exact ((ih aliveBefore).entry chronicle none entry).moves chronicleNow none
                (picks.last last)
  | accept _ _ aliveBefore _ ih => exact (ih aliveBefore).congr (.refl _) rfl rfl
  | drain _ ih => exact (ih alive).congr (.refl _) rfl rfl
  | code _ _ ih => exact (ih alive).congr (.refl _) rfl rfl
  | abandon _ failed => cases alive.symm.trans failed
  | progress _ moved ih => exact (ih alive).congr (adds_of_calls moved) rfl rfl

/-- Whether a stream has B-pictures or not, its packets have the timestamps that they want, as far as
these do not go back. -/
theorem Course.stamped (course : Course SameCalls (opened start gop config mode) accepted packets
      encoder) (nothing : start.calls = []) (valid : config.Valid)
    (made : Gop.ofConfig? config (B.recorded.capabilities start) = some gop)
    (delayed : (B.recorded.capabilities start).undelayed = false)
    (paced : mode = .blocking ∨ (B.recorded.capabilities start).pipelined = false)
    (alive : encoder.failed = false) (taken : encoder.backend.refusals = []) :
    Stamped encoder.times gop.maxBDepth encoder.outputs encoder.clock.lastDts
      (packets.map CodedPicture.info) := by
  have starts := Chronicle.start nothing valid made mode
  by_cases none : gop.bPerGroup = 0
  · have flat : gop.maxBDepth = 0 := by
      have shallow := (Gop.bounds_of_ofConfig? made).1
      omega
    have blank : Straight [] (opened (B := B.recorded) start gop config mode) := by
      refine ⟨none, fun _ => ?_⟩
      have ended : start.fates = [] := by simp [Recorded.fates, Recorded.endings, nothing]
      have outputsEq : (opened (B := B.recorded) start gop config mode).outputs = [] := by
        rw [outputs]
        dsimp only [opened]
        rw [ended]
        rfl
      rw [outputsEq]
      exact ⟨rfl, by simp⟩
    rw [flat]
    exact (course.straight starts rfl none blank alive).stamped taken
  · have timed := course.timed starts rfl (settles_opened valid made paced)
      (Timed.start nothing valid made mode (Nat.pos_of_ne_zero none) delayed) alive
    have delay : encoder.clock.decodeDelay = gop.maxBDepth := course.setting.decodeDelay
    rw [← delay]
    exact timed.stamped taken

end

end VideoSchedule.Encoder

import Mathlib.Data.List.GetD
import Mathlib.Data.Nat.ModEq
import Mathlib.Order.Bounds.Basic
import VideoSchedule.Proofs.Output

/-!
Decode timestamps. A clock that has every recent timestamp on its ring gives out the greatest of those
that the pictures so far were due.
-/

namespace VideoSchedule

theorem slot_ne {first second size : Nat} (ordered : first < second) (near : second < first + size) :
    first % size ≠ second % size := by
  intro same
  have divides : size ∣ second - first := (Nat.modEq_iff_dvd' ordered.le).mp same
  exact absurd (Nat.le_of_dvd (by omega) divides) (by omega)

theorem max?_concat (values : List Int) (value : Int) :
    (values ++ [value]).max? = some (match values.max? with
      | none => value
      | some last => max last value) := by
  cases values with
  | nil => rfl
  | cons first rest =>
      rw [List.cons_append, List.max?_cons', List.max?_cons', List.foldl_append]
      rfl

namespace DecodeClock

/-- Distance from the first timestamp to the one after the decode delay, or to the last one if the
stream is shorter. -/
def lead (times : List Int) (delay : Nat) : Int :=
  Tick.saturate (times.getD (min delay (times.length - 1)) 0 - times.getD 0 0)

/-- The decode timestamp of the picture with this encode order, if it were alone. -/
def wanted (times : List Int) (delay order : Nat) : Int :=
  if order < delay then Tick.differenceOrLowest (times.getD order 0) (lead times delay)
  else times.getD (order - delay) 0

structure Tracks (clock : DecodeClock) (times : List Int) : Prop where
  recorded : ∀ order, order < times.length → times.length ≤ order + clock.ring.length →
    clock.recorded order = times.getD order 0
  firstPts : times ≠ [] → clock.firstPts = times.getD 0 0

variable {clock : DecodeClock} {times : List Int} {delay order : Nat}

theorem lead_concat (reached : delay < times.length) (time : Int) :
    lead (times ++ [time]) delay = lead times delay := by
  have first : min delay ((times ++ [time]).length - 1) = delay := by
    rw [List.length_append, List.length_singleton]
    omega
  have second : min delay (times.length - 1) = delay := by omega
  rw [lead, lead, first, second, List.getD_append _ _ _ _ reached,
    List.getD_append _ _ _ _ (by omega)]

theorem wanted_concat (reached : delay < times.length) (inside : order < times.length) (time : Int) :
    wanted (times ++ [time]) delay order = wanted times delay order := by
  rw [wanted, wanted, lead_concat reached, List.getD_append _ _ _ _ inside,
    List.getD_append _ _ _ _ (by omega)]

theorem lead_of_short (short : times.length ≤ delay + 1) {time : Int}
    (last : times.getLast? = some time) :
    lead times delay = Tick.saturate (time - times.getD 0 0) := by
  have place : min delay (times.length - 1) = times.length - 1 := by omega
  rw [List.getLast?_eq_getElem?] at last
  rw [lead, place, List.getD_eq_getElem?_getD, last, Option.getD_some]

theorem Tracks.recordInput (tracks : clock.Tracks times) (delays : 0 < clock.outputDelay)
    (holds : 0 < clock.ring.length) (time : Int) :
    (clock.recordInput times.length time).Tracks (times ++ [time]) where
  recorded order inside near := by
    rw [length_ring_recordInput] at near
    rw [List.length_append, List.length_singleton] at inside near
    rw [DecodeClock.recorded, slot, length_ring_recordInput]
    simp only [DecodeClock.recordInput, if_pos delays, slot, List.getD_eq_getElem?_getD]
    by_cases last : order = times.length
    · rw [last, List.getElem?_set_self (Nat.mod_lt _ holds), List.getElem?_concat_length]
    · have before : order < times.length := by omega
      have kept := tracks.recorded order before (by omega)
      rw [List.getElem?_set_ne (slot_ne before (by omega)).symm, List.getElem?_append_left before]
      simpa [DecodeClock.recorded, slot, List.getD_eq_getElem?_getD] using kept
  firstPts _ := by
    cases times with
    | nil => rfl
    | cons first rest =>
        have kept := tracks.firstPts (by simp)
        simpa [DecodeClock.recordInput] using kept

theorem Tracks.offset_recordInput (tracks : clock.Tracks times)
    (settled : clock.decodeDelay < times.length → clock.offset = lead times clock.decodeDelay)
    (time : Int) (reached : clock.decodeDelay < times.length + 1) :
    (clock.recordInput times.length time).offset = lead (times ++ [time]) clock.decodeDelay := by
  by_cases now : times.length = clock.decodeDelay
  · have first : (if times.length = 0 then time else clock.firstPts) =
        (times ++ [time]).getD 0 0 := by
      cases times with
      | nil => rfl
      | cons first rest => exact tracks.firstPts (by simp)
    rw [lead_of_short (by simp [now]) List.getLast?_concat, ← first]
    simp only [DecodeClock.recordInput, if_pos now]
  · have before : clock.decodeDelay < times.length := by omega
    rw [lead_concat before, ← settled before]
    simp [DecodeClock.recordInput, now]

theorem Tracks.offset_endStream (tracks : clock.Tracks times)
    (settled : clock.decodeDelay < times.length → clock.offset = lead times clock.decodeDelay)
    {time : Int} (last : clock.decodeDelay < times.length ∨ times.getLast? = some time) :
    (clock.endStream times.length time).offset = lead times clock.decodeDelay := by
  rw [endStream]
  split
  next short =>
    have isLast := last.resolve_left (by omega)
    have first := tracks.firstPts fun none => by simp [none] at isLast
    rw [lead_of_short (by omega) isLast, first]
  next long => exact settled (by omega)

theorem Tracks.rawDts_eq (tracks : clock.Tracks times) (delays : 0 < clock.outputDelay)
    (offset : clock.offset = lead times clock.decodeDelay) (inside : order < times.length)
    (near : times.length + clock.decodeDelay ≤ order + clock.ring.length) (pts : Int) :
    clock.rawDts order pts false = wanted times clock.decodeDelay order := by
  have notZero : clock.outputDelay ≠ 0 := by omega
  rw [rawDts, if_neg (by simp [notZero]), wanted]
  split
  next early => rw [tracks.recorded order inside (by omega), offset]
  next late => rw [tracks.recorded _ (by omega) (by omega)]

theorem due_eq {orders : List Nat} {delay : Nat}
    (last : clock.lastDts = (orders.map (wanted times delay)).max?) {pts : Int} {noDelay : Bool}
    (raw : clock.rawDts order pts noDelay = wanted times delay order) :
    some (clock.due order pts noDelay) = ((orders ++ [order]).map (wanted times delay)).max? := by
  cases lastEq : clock.lastDts with
  | none => rw [List.map_append, List.map_singleton, max?_concat, ← last, due, raw, lastEq]
  | some time => rw [List.map_append, List.map_singleton, max?_concat, ← last, due, raw, lastEq]

/-! Timestamps that were given out. -/

/-- A picture that was output got the greatest timestamp that those up to it wanted. -/
def Dated (times : List Int) (delay : Nat) (outputs : List Nat) (order : Nat) (dts : Int) : Prop :=
  order ∈ outputs ∧
    IsGreatest {time | ∃ other ∈ outputs, other ≤ order ∧ wanted times delay other = time} dts

variable {outputs : List Nat} {dts : Int}

theorem Dated.concat_time (dated : Dated times delay outputs order dts)
    (reached : delay < times.length) (inside : ∀ other ∈ outputs, other < times.length) (time : Int) :
    Dated (times ++ [time]) delay outputs order dts := by
  refine ⟨dated.1, ?_⟩
  have same : {time' | ∃ other ∈ outputs, other ≤ order ∧
      wanted (times ++ [time]) delay other = time'} =
      {time' | ∃ other ∈ outputs, other ≤ order ∧ wanted times delay other = time'} := by
    ext time'
    refine exists_congr fun other => and_congr_right fun member => ?_
    rw [wanted_concat reached (inside other member)]
  rw [same]
  exact dated.2

theorem Dated.concat_output (dated : Dated times delay outputs order dts) {next : Nat}
    (later : order < next) : Dated times delay (outputs ++ [next]) order dts := by
  refine ⟨List.mem_append_left _ dated.1, ?_⟩
  have same : {time | ∃ other ∈ outputs ++ [next], other ≤ order ∧ wanted times delay other = time} =
      {time | ∃ other ∈ outputs, other ≤ order ∧ wanted times delay other = time} := by
    ext time
    refine exists_congr fun other => ?_
    rw [List.mem_append, List.mem_singleton]
    refine ⟨?_, fun ⟨member, facts⟩ => ⟨Or.inl member, facts⟩⟩
    rintro ⟨member | rfl, upTo, wantedEq⟩
    · exact ⟨member, upTo, wantedEq⟩
    · omega
  rw [same]
  exact dated.2

theorem dated_of_greatest (greatest : (outputs.map (wanted times delay)).max? = some dts)
    (member : order ∈ outputs) (last : ∀ other ∈ outputs, other ≤ order) :
    Dated times delay outputs order dts := by
  obtain ⟨isWanted, bounds⟩ := List.max?_eq_some_iff.mp greatest
  obtain ⟨other, isOutput, wantedEq⟩ := List.mem_map.mp isWanted
  refine ⟨member, ⟨other, isOutput, last other isOutput, wantedEq⟩, ?_⟩
  rintro _ ⟨another, isAnother, _, rfl⟩
  exact bounds _ (List.mem_map_of_mem isAnother)

structure Stamped (times : List Int) (delay : Nat) (outputs : List Nat) (last : Option Int)
    (packets : List PacketInfo) : Prop where
  last : last = (outputs.map (wanted times delay)).max?
  dated : ∀ packet ∈ packets, Dated times delay outputs packet.encodeOrder packet.dts

variable {last : Option Int} {packets : List PacketInfo}

theorem Stamped.concat_time (stamped : Stamped times delay outputs last packets)
    (inside : ∀ other ∈ outputs, delay < times.length ∧ other < times.length) (time : Int) :
    Stamped (times ++ [time]) delay outputs last packets where
  last := by
    rw [stamped.last]
    refine congrArg List.max? (List.map_congr_left fun other member => ?_)
    rw [wanted_concat (inside other member).1 (inside other member).2]
  dated packet member := by
    have dated := stamped.dated packet member
    exact dated.concat_time (inside _ dated.1).1 (fun other isOutput => (inside other isOutput).2) time

theorem Stamped.output (stamped : Stamped times delay outputs last packets) {next : Nat} {dts : Int}
    (later : ∀ other ∈ outputs, other < next)
    (greatest : ((outputs ++ [next]).map (wanted times delay)).max? = some dts)
    {more : List PacketInfo} (given : ∀ packet ∈ more, packet.encodeOrder = next ∧ packet.dts = dts) :
    Stamped times delay (outputs ++ [next]) (some dts) (packets ++ more) where
  last := greatest.symm
  dated packet member := by
    rcases List.mem_append.mp member with old | new
    · have dated := stamped.dated packet old
      exact dated.concat_output (later _ dated.1)
    · obtain ⟨orderEq, dtsEq⟩ := given packet new
      rw [orderEq, dtsEq]
      refine dated_of_greatest greatest (by simp) fun other isOutput => ?_
      rcases List.mem_append.mp isOutput with earlier | isNext
      · exact (later other earlier).le
      · rw [List.mem_singleton.mp isNext]

end DecodeClock

end VideoSchedule

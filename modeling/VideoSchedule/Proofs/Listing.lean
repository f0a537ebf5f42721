import VideoSchedule.Proofs.Codec
import VideoSchedule.Proofs.TimestampsInOrder
import VideoSchedule.Proofs.EndToEnd

/-!
The packets of a stream, all of them and with everything that they say, as a function of the frames and
of the structure of the stream. On a device for which no failure was planned every session of these
frames comes to these packets, whichever way it takes.
-/

namespace VideoSchedule

namespace Outline

def packet (outline : Outline) (place : Nat) : Packet where
  displayOrder := UInt64.ofNat outline.displayOrder
  encodeOrder := UInt64.ofNat place
  type := outline.type
  depth := outline.depth
  isReference := outline.isReference
  past := outline.past.map UInt64.ofNat
  future := outline.future.map UInt64.ofNat
  dpb := outline.dpb.map UInt64.ofNat

theorem packet_outline {ι : Type} (request : Request ι) :
    request.outline.packet request.picture.encodeOrder = Packet.ofRequest request := by
  simp [packet, Request.outline, Packet.ofRequest, Function.comp_def]

end Outline

namespace DecodeClock

def date (times : List Int) (delay place : Nat) : Int :=
  ((List.range (place + 1)).map (wanted times delay)).max?.getD 0

theorem Dated.eq_date {times : List Int} {delay count place : Nat} {dts : Int}
    (dated : Dated times delay (List.range count) place dts) : dts = date times delay place := by
  obtain ⟨inside, ⟨other, isOutput, upTo, same⟩, bounds⟩ := dated
  have greatest : ((List.range (place + 1)).map (wanted times delay)).max? = some dts := by
    refine List.max?_eq_some_iff.mpr ⟨?_, fun time member => ?_⟩
    · rw [← same]
      exact List.mem_map_of_mem (List.mem_range.mpr (Nat.lt_succ_of_le upTo))
    · obtain ⟨another, early, rfl⟩ := List.mem_map.mp member
      have before := Nat.le_of_lt_succ (List.mem_range.mp early)
      refine bounds ⟨another, ?_, before, rfl⟩
      exact List.mem_range.mpr (Nat.lt_of_le_of_lt before (List.mem_range.mp inside))
  rw [date, greatest, Option.getD_some]

end DecodeClock

def Outline.coded (frames : List Frame) (delay place : Nat) (outline : Outline) : CodedPicture :=
  let frame := frames.getD outline.displayOrder {}
  { info := {
      pts := frame.pts
      dts := DecodeClock.date (frames.map Frame.pts) delay place
      duration := frame.duration
      keyFrame := outline.type == .idr
      type := outline.type
      displayOrder := outline.displayOrder
      encodeOrder := place
      payload := frame.payload }
    bitstream := (outline.packet place).toBytes.toOption.getD [] }

/-- All packets of a stream, in the order in which they come out. -/
def Gop.listing (gop : Gop) (frames : List Frame) : List CodedPicture :=
  (Cursor.script (cuesOf frames) { gop } []).mapIdx (Outline.coded frames gop.decodeDelay)

theorem Packet.Writable.bytes {packet : Packet} (writable : packet.Writable) :
    ∃ byte rest, packet.toBytes = .ok (byte :: rest) := by
  rw [Packet.toBytes, Packet.write, if_pos writable]
  exact ⟨_, _, rfl⟩

theorem Request.coded?_fate {ι : Type} {request : Request ι}
    (writable : (Packet.ofRequest request).Writable) :
    request.fate.coded? =
      some (request.picture, (Packet.ofRequest request).toBytes.toOption.getD []) := by
  obtain ⟨byte, rest, bytes⟩ := writable.bytes
  rw [fate, bytes]
  rfl

namespace Encoder

open VideoSchedule.Action Recorded

variable {device : Device} {config : Config} {gop : Gop} {mode : BlockingMode}
  {frames : List Frame} {packets : List CodedPicture} {admitted : List (Frame × Nat)}
  {last : Encoder Backend.simulated.recorded}

theorem Honest.done (honest : Honest last []) :
    last.backend.fates = last.backend.requests.map Request.fate := by
  obtain ⟨done, flying, requests, fates, due⟩ := honest.settled
  cases due
  rw [fates, requests, List.append_nil]

theorem Told.coded (told : Told (B := Backend.simulated) gop admitted packets last)
    (honest : Honest last []) (fits : ∀ request ∈ last.backend.requests, request.Fits last.caps) :
    List.Forall₂ (fun packet (request : Request Nat) => Conveys admitted packet
        (request.picture, (Packet.ofRequest request).toBytes.toOption.getD []))
      packets last.backend.requests := by
  have conveyed := told.chronicle.accounts.conveyed
  have coded : last.backend.fates.filterMap Fate.coded? = last.backend.requests.map fun request =>
      (request.picture, (Packet.ofRequest request).toBytes.toOption.getD []) := by
    rw [honest.done, List.filterMap_map, ← List.filterMap_eq_map]
    exact List.filterMap_congr fun request asked => Request.coded?_fate (fits request asked).writable
  rw [coded, List.forall₂_map_right_iff] at conveyed
  exact conveyed

theorem coded_of_conveys {packet : CodedPicture} {request : Request Nat} {place : Nat}
    (conveys : Conveys admitted packet
      (request.picture, (Packet.ofRequest request).toBytes.toOption.getD []))
    (order : request.picture.encodeOrder = place)
    (dts : packet.info.dts =
      DecodeClock.date ((admitted.map Prod.fst).map Frame.pts) gop.decodeDelay place) :
    packet = request.outline.coded (admitted.map Prod.fst) gop.decodeDelay place := by
  obtain ⟨bitstream, displayOrder, encodeOrder, type, keyFrame, entry, listed, pts, duration,
    payload⟩ := conveys
  rw [displayOrder] at listed
  dsimp only at bitstream displayOrder encodeOrder type keyFrame listed
  rw [order] at encodeOrder
  have frame : (admitted.map Prod.fst).getD request.picture.displayOrder {} = entry.1 := by
    rw [List.getD_eq_getElem?_getD, List.getElem?_map, listed]
    rfl
  have described := Outline.packet_outline request
  rw [order] at described
  rw [Outline.coded, described]
  dsimp only [Request.outline]
  rw [frame, ← pts, ← duration, ← payload, ← dts, ← bitstream, ← keyFrame, ← type, ← displayOrder,
    ← encodeOrder]

theorem Told.listed (told : Told (B := Backend.simulated) gop admitted packets last)
    (honest : Honest last []) (fits : ∀ request ∈ last.backend.requests, request.Fits last.caps)
    (stamped : DecodeClock.Stamped last.times gop.maxBDepth last.outputs last.clock.lastDts
      (packets.map CodedPicture.info)) :
    packets = gop.listing (admitted.map Prod.fst) := by
  have numbers := told.numbers honest.accepted
  have outputs : last.outputs = List.range last.backend.requests.length := by
    rw [Encoder.outputs, honest.done, List.filterMap_map, ← numbers, ← List.filterMap_eq_map]
    refine List.filterMap_congr fun request asked => ?_
    obtain ⟨_, _, bytes⟩ := (fits request asked).writable.bytes
    simp [Request.fate, bytes, Except.toOption]
  have timesEq : last.times = (admitted.map Prod.fst).map Frame.pts := by
    rw [told.chronicle.tells.times_eq, List.map_map]
    rfl
  have coded := told.coded honest fits
  have length : packets.length = (gop.listing (admitted.map Prod.fst)).length := by
    rw [Gop.listing, List.length_mapIdx, told.script, List.length_map, coded.length_eq]
  refine List.ext_getElem length fun place inside _ => ?_
  have requested : place < last.backend.requests.length := by rwa [← coded.length_eq]
  have conveys := List.Forall₂.get coded inside requested
  simp only [List.get_eq_getElem] at conveys
  have order : last.backend.requests[place].picture.encodeOrder = place := by
    have number := congrArg (·[place]?) numbers
    simpa [requested] using number
  have dated := stamped.dated _ (List.mem_map_of_mem (List.getElem_mem inside))
  rw [outputs, timesEq, conveys.encodeOrder, order] at dated
  simp only [Gop.listing, List.getElem_mapIdx, told.script, List.getElem_map]
  exact coded_of_conveys conveys order dated.eq_date

/-! Whole streams. -/

theorem acceptances_eq_requests {B : Backend} {state : Recorded B} (none : state.refusals = []) :
    state.acceptances = state.requests := by
  unfold refusals at none
  unfold acceptances requests
  revert none
  induction state.calls.reverse with
  | nil => exact fun _ => rfl
  | cons call rest ih =>
      intro none
      cases call with
      | issue request failure =>
          cases failure with
          | none => exact congrArg (List.cons request) (ih none)
          | some => cases none
      | alloc | sync | output | free => exact ih none

theorem length_allocatedImages {B : Backend} {state : Recorded B} {admitted : List (Frame × B.Image)}
    (allocated : state.allocations = admitted.map fun entry => (entry.1, some entry.2)) :
    (allocatedImages state.calls).length = admitted.length := by
  have images : (allocatedImages state.calls).reverse = state.allocations.filterMap Prod.snd := by
    rw [allocations, List.filterMap_filterMap, allocatedImages, ← List.filterMap_reverse]
    refine List.filterMap_congr fun call _ => ?_
    cases call with
    | alloc frame result => cases result <;> rfl
    | issue | sync | output | free => rfl
  rw [← List.length_reverse, images, allocated, List.filterMap_map]
  simp

theorem Exhausted.freed {B : Backend} {encoder : Encoder B.recorded} (exhausted : encoder.Exhausted)
    (sound : encoder.Sound (Ledger.custody B)) :
    (allocatedImages encoder.backend.calls).Perm (freedImages encoder.backend.calls) := by
  have standing : Live encoder.backend.calls [] := by
    rcases sound with running | ended
    · obtain ⟨records, keeps, _⟩ := running.core.records
      have standing := keeps.standing
      rwa [Window.images_eq_nil exhausted.window] at standing
    · exact ended.records.standing
  rwa [Live, List.append_nil] at standing

/-- A session that has encoded its stream on a device for which no failure was planned. -/
structure Whole (gop : Gop) (admitted : List (Frame × Nat))
    (last : Encoder Backend.simulated.recorded) : Prop where
  told : Told (B := Backend.simulated) gop admitted (gop.listing (admitted.map Prod.fst)) last
  honest : Honest last []
  fits : ∀ request ∈ last.backend.requests, request.Fits last.caps
  sound : last.Sound (Ledger.custody Backend.simulated)

theorem Suited.encodes (suited : Suited device config gop)
    (delayed : device.caps.undelayed = false) (frames : List Frame) :
    ∃ admitted last, admitted.map Prod.fst = frames ∧ Whole gop admitted last ∧
      Runs (encodeStream frames) (openedOn device gop config .blocking)
        (.ok { packets := gop.listing frames, ending := .ok (), left := [] }) last := by
  have starts : Comes (openedOn device gop config .blocking) [] []
      (openedOn device gop config .blocking) := by
    have created :
        ((create { inner := device } config .blocking :
          Action Unit (Encoder Backend.simulated.recorded)) ()).result =
            .ok (openedOn device gop config .blocking) :=
      create_opened suited.valid suited.made .blocking
    exact ⟨Reachable.custody rfl (.created config .blocking created), .start⟩
  obtain ⟨given, last, runs, comes, exhausted⟩ := starts.encodeStream_runs suited frames rfl rfl
  rw [List.nil_append, List.nil_append] at comes
  obtain ⟨alive, honest⟩ := comes.course.honest suited
  have fits := comes.course.fits suited
  have course := comes.course.recorded
  obtain ⟨admitted, rfl, told⟩ := course.told rfl suited.valid suited.made alive exhausted
  have stamped := course.stamped rfl suited.valid suited.made delayed (Or.inl rfl) alive honest.accepted
  rw [exhausted.queue] at honest
  have listed := told.listed honest fits stamped
  subst listed
  exact ⟨admitted, last, rfl, ⟨told, honest, fits, comes.sound⟩, runs⟩

variable (whole : Whole gop admitted last)
include whole

theorem Whole.length_requests : last.backend.requests.length = admitted.length := by
  have orders := whole.told.orders.length_eq
  rwa [List.length_map, List.length_range] at orders

theorem Whole.issued : last.backend.inner.issued.size = admitted.length := by
  have issued := congrArg List.length whole.honest.faithful.issued
  rwa [Array.length_toList, List.length_map, acceptances_eq_requests whole.honest.accepted,
    whole.length_requests] at issued

theorem Whole.freed : last.backend.inner.freed.size = admitted.length := by
  have freed := congrArg List.length whole.honest.faithful.freed
  rwa [Array.length_toList, List.length_reverse,
    ← (whole.told.exhausted.freed whole.sound).length_eq,
    length_allocatedImages whole.told.chronicle.tells.allocated] at freed

theorem Whole.readable : ∀ coded ∈ gop.listing (admitted.map Prod.fst),
    ∃ packet, Packet.ofBytes coded.bitstream = .ok packet := by
  intro coded member
  have conveyed := whole.told.coded whole.honest whole.fits
  obtain ⟨place, inside, rfl⟩ := List.getElem_of_mem member
  have requested : place < last.backend.requests.length := by rwa [← conveyed.length_eq]
  have bitstream := (List.Forall₂.get conveyed inside requested).bitstream
  simp only [List.get_eq_getElem] at bitstream
  obtain ⟨_, _, bytes⟩ := (whole.fits _ (List.getElem_mem requested)).writable.bytes
  rw [bytes] at bitstream
  rw [bitstream]
  exact ⟨_, Packet.ofBytes_of_toBytes bytes⟩

end Encoder

/-! The orders of a listing. -/

theorem Gop.orders_listing (gop : Gop) (frames : List Frame) :
    (gop.listing frames).map (fun coded => coded.info.encodeOrder) = List.range frames.length ∧
      ((gop.listing frames).map fun coded => coded.info.displayOrder).Perm
        (List.range frames.length) := by
  have perm := Encoder.orders_cues gop frames
  have length := perm.length_eq
  rw [List.length_map, List.length_range] at length
  constructor
  · refine List.ext_getElem ?_ fun place _ _ => ?_
    · rw [List.length_map, listing, List.length_mapIdx, length, List.length_range]
    · simp [listing, Outline.coded]
  · have shown : (gop.listing frames).map (fun coded => coded.info.displayOrder) =
        (Cursor.script (cuesOf frames) { gop } []).map Outline.displayOrder := by
      refine List.ext_getElem (by simp [listing]) fun place _ _ => ?_
      simp [listing, Outline.coded]
    rwa [shown]

theorem Gop.pts_of_mem_listing {gop : Gop} {frames : List Frame} {coded : CodedPicture}
    (member : coded ∈ gop.listing frames) :
    coded.info.displayOrder < frames.length ∧
      coded.info.pts = (frames.getD coded.info.displayOrder {}).pts := by
  constructor
  · have listed := (gop.orders_listing frames).2.mem_iff.mp (List.mem_map_of_mem member)
    exact List.mem_range.mp listed
  · obtain ⟨place, inside, rfl⟩ := List.getElem_of_mem member
    simp only [listing, List.getElem_mapIdx]
    rfl

end VideoSchedule

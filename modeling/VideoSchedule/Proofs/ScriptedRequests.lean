import VideoSchedule.Proofs.Moves
import VideoSchedule.Proofs.ScriptedPicks
import VideoSchedule.Proofs.Reachable
import VideoSchedule.Proofs.Records

/-!
A session tells the script of its frames. At any time the requests are a beginning of the script of
the frames that came in, and once the stream is finished they are the whole of it, whatever was
refused or failed on the way.
-/

namespace VideoSchedule

open VideoSchedule.Action Window

def cuesOf : List Frame → List Bool
  | [] => []
  | _ :: rest => true :: rest.map Frame.forceKey

theorem length_cuesOf (frames : List Frame) : (cuesOf frames).length = frames.length := by
  cases frames <;> simp [cuesOf]

theorem cuesOf_concat (frames : List Frame) (frame : Frame) :
    cuesOf (frames ++ [frame]) = cuesOf frames ++ [frames.length == 0 || frame.forceKey] := by
  cases frames <;> simp [cuesOf]

def Request.outline {ι : Type} (request : Request ι) : Outline where
  displayOrder := request.picture.displayOrder
  type := request.picture.type
  depth := request.picture.depth
  isReference := request.picture.isReference
  past := request.past.map fun reference => reference.info.displayOrder
  future := request.future.map fun reference => reference.info.displayOrder
  dpb := request.dpb.map fun reference => reference.info.displayOrder

namespace Encoder

variable {B : Backend} {ledger : Ledger B} {before after : Encoder B} {origin : Cursor}
  {cues : List Bool} {done : List Outline} {flight later : List (Handle × B.Promise)}
  {packets : List CodedPicture} {scheduler : Scheduler} {window : Window B.Image}
  {handle : Handle} {picture : Picture B.Image} {request : Request B.Image} {encodeOrder : Nat}

theorem order_referencePicture {target : Handle} {reference : ReferencePicture B.Image}
    (refers : referencePicture window target = .ok reference) :
    reference.info.displayOrder = window.orderOf target := by
  rw [referencePicture] at refers
  split at refers
  next => cases refers
  next picture found =>
    split at refers
    next => cases refers
    next =>
      cases refers
      rw [orderOf_of_find? found]
      rfl

theorem orders_referencesOf {targets : List Handle} {references : List (ReferencePicture B.Image)}
    (listed : referencesOf window handle targets = .ok references) :
    references.map (fun reference => reference.info.displayOrder) =
      (targets.filter (· ≠ handle)).map window.orderOf := by
  induction targets generalizing references with
  | nil =>
      cases listed
      rfl
  | cons target rest ih =>
      by_cases same : target = handle
      · rw [referencesOf, if_pos same] at listed
        rw [ih listed, List.filter_cons_of_neg (by simp [same])]
      · obtain ⟨reference, others, refers, listedRest, rfl⟩ := referencesOf_cons_ok same listed
        rw [List.map_cons, ih listedRest, List.filter_cons_of_pos (by simp [same]), List.map_cons,
          order_referencePicture refers]

theorem Asks.outline_eq {outline : Outline}
    (asks : Asks (window.adjust handle (number encodeOrder)) handle picture request)
    {old : Picture B.Image} (found : window.find? handle = some old)
    (outlined : old.Outlined window handle outline) : request.outline = outline := by
  have numbered := find?_adjust_self found (number encodeOrder)
  cases find?_unique asks.found numbered
  have orders : ∀ {targets : List Handle} {references : List (ReferencePicture B.Image)},
      referencesOf (window.adjust handle (number encodeOrder)) handle targets = .ok references →
        references.map (fun reference => reference.info.displayOrder) =
          (targets.filter (· ≠ handle)).map window.orderOf := by
    intro targets references listed
    have ordersEq := orderOf_adjust handle (number encodeOrder) window fun _ => rfl
    rw [orders_referencesOf listed, ordersEq]
  have past := (orders asks.past).trans outlined.past
  have future := (orders asks.future).trans outlined.future
  have dpb := (orders asks.dpb).trans outlined.dpb
  rw [Request.outline, asks.info, past, future, dpb]
  have displayOrder := outlined.displayOrder
  have type := outlined.type
  have depth := outlined.depth
  have reference := outlined.isReference
  cases outline
  simp_all [Picture.info, number]

/-- How a session stands with the script of its frames, of which `done` was issued. -/
inductive Stands (origin : Cursor) (cues : List Bool) (done : List Outline) (encoder : Encoder B) :
    Prop where
  | within {next : Nat} {laid fresh : List Handle} {due : List (Mark Handle)}
      (plot : Plot origin cues done encoder.scheduler encoder.window next laid fresh due)
  | through (empty : encoder.window.handles = []) (ended : encoder.scheduler.endOfStream = true)
      (script : Cursor.script cues origin [] = done)

theorem Stands.plot_of_live (stands : Stands origin cues done before)
    (live : handle ∈ before.window.handles) : ∃ next laid fresh due,
      Plot origin cues done before.scheduler before.window next laid fresh due := by
  cases stands with
  | within plot => exact ⟨_, _, _, _, plot⟩
  | through empty =>
      rw [empty] at live
      cases live

theorem live_of_picked (core : before.Core ledger [] flight)
    (picks : Runs Scheduler.pickNext (before.scheduler, before.window) (.ok (.picture handle))
      (scheduler, window)) : handle ∈ before.window.handles := by
  obtain ⟨schedules, pickable⟩ := core.picked picks
  obtain ⟨_, rewrites, _⟩ := schedules.rewrites
  obtain ⟨_, found, _⟩ := pickable.waiting
  rw [← rewrites.handles]
  exact mem_handles_of_find? found

theorem Stands.picks (stands : Stands origin cues done before) (core : before.Core ledger [] flight)
    (picks : Runs Scheduler.pickNext (before.scheduler, before.window) (.ok (.picture handle))
      (scheduler, window))
    (asks : Asks (window.adjust handle (number encodeOrder)) handle picture request) :
    ∃ next laid fresh due, Plot origin cues (done ++ [request.outline]) scheduler
      (issuedWindow window handle encodeOrder) next laid fresh due := by
  obtain ⟨_, _, _, _, plot⟩ := stands.plot_of_live (live_of_picked core picks)
  obtain ⟨outline, next, laid, fresh, due, old, _, issued, found, outlined, _⟩ :=
    plot.picks core.tidy picks
  have foundIssued := find?_adjust_self found Picture.issue
  rw [asks.outline_eq found outlined, ← issuedWindow_swap]
  exact ⟨next, laid, fresh, due,
    issued.advance foundIssued rfl (fun _ => rfl) (fun _ => rfl) fun _ => rfl⟩

theorem found_of_picked (core : before.Core ledger [] flight)
    (picks : Runs Scheduler.pickNext (before.scheduler, before.window) (.ok (.picture handle))
      (scheduler, window)) (encodeOrder : Nat) :
    ∃ picture, (issuedWindow window handle encodeOrder).find? handle = some picture ∧
      picture.issued = true := by
  obtain ⟨_, pickable⟩ := core.picked picks
  obtain ⟨picture, found, _⟩ := pickable.waiting
  exact ⟨_, find?_adjust_self (find?_adjust_self found _) _, rfl⟩

theorem Stands.accepted (stands : Stands origin cues done before)
    (core : before.Core ledger [] flight)
    (picks : Runs Scheduler.pickNext (before.scheduler, before.window) (.ok (.picture handle))
      (scheduler, window))
    (asks : Asks (window.adjust handle (number encodeOrder)) handle picture request)
    (scheduled : after.scheduler = scheduler)
    (windowEq : after.window = issuedWindow window handle encodeOrder) :
    Stands origin cues (done ++ [request.outline]) after := by
  obtain ⟨_, _, _, _, plot⟩ := stands.picks core picks asks
  rw [← scheduled, ← windowEq] at plot
  exact .within plot

theorem Stands.refused (stands : Stands origin cues done before)
    (core : before.Core ledger [] flight)
    (picks : Runs Scheduler.pickNext (before.scheduler, before.window) (.ok (.picture handle))
      (scheduler, window))
    (asks : Asks (window.adjust handle (number encodeOrder)) handle picture request)
    {gone : List (Picture B.Image)}
    (cleared : Retirement.Cleared scheduler.past.recent gone
      ((issuedWindow window handle encodeOrder).adjust handle lose) after.window)
    (scheduled : after.scheduler = scheduler) :
    Stands origin cues (done ++ [request.outline]) after := by
  obtain ⟨_, _, _, _, plot⟩ := stands.picks core picks asks
  obtain ⟨_, pickable⟩ := core.picked picks
  obtain ⟨_, found, issued⟩ := found_of_picked core picks encodeOrder
  have tidy := advances_lose.tidy (tidy_issuedWindow pickable.tidy handle encodeOrder) found issued
  have lost := plot.advance found issued advances_lose.layout advances_lose.issued
    advances_lose.released
  obtain ⟨_, left⟩ := lost.cleared tidy cleared
  rw [← scheduled] at left
  exact .within left

theorem Stands.leave (stands : Stands origin cues done before)
    (tidy : before.window.Tidy before.scheduler.past.recent)
    (found : before.window.find? handle = some picture) (issued : picture.issued = true)
    {change : Picture B.Image → Picture B.Image} (advances : Advances change)
    {gone : List (Picture B.Image)}
    (cleared : Retirement.Cleared before.scheduler.past.recent gone
      (before.window.adjust handle change) after.window)
    (gop : after.scheduler.gop = before.scheduler.gop)
    (past : after.scheduler.past = before.scheduler.past)
    (entered : after.scheduler.inputOrder = before.scheduler.inputOrder)
    (ended : after.scheduler.endOfStream = before.scheduler.endOfStream) :
    Stands origin cues done after := by
  obtain ⟨_, _, _, _, plot⟩ := stands.plot_of_live (mem_handles_of_find? found)
  have further := plot.advance found issued advances.layout advances.issued advances.released
  obtain ⟨_, left⟩ := further.cleared (advances.tidy tidy found issued) cleared
  exact .within (left.of_scheduler gop past entered ended)

theorem Stands.finish (stands : Stands origin cues done before)
    (ended : before.scheduler.endOfStream = true)
    (issued : ∀ handle picture, before.window.find? handle = some picture → picture.issued = true)
    (finishes : Finishes before after) : Stands origin cues done after := by
  cases finishes with
  | retired pictures empty =>
      refine .through empty ended ?_
      cases stands with
      | within plot => exact plot.finished issued
      | through _ _ script => exact script

/-! Sessions whose backend is under record. -/

section

variable {before after : Encoder B.recorded} {admitted : List (Frame × B.Image)}
  {flight later : List (Handle × B.recorded.Promise)}

/-- How a session under record stands with the frames that were admitted, each with its image. -/
structure Tells (origin : Cursor) (admitted : List (Frame × B.Image)) (encoder : Encoder B.recorded) :
    Prop where
  allocated : encoder.backend.allocations = admitted.map fun entry => (entry.1, some entry.2)
  stands : Stands origin (cuesOf (admitted.map Prod.fst))
    (encoder.backend.requests.map Request.outline) encoder

theorem Tells.of_adds (tells : Tells origin admitted before) {ended : List Fate}
    (adds : before.backend.Adds after.backend [] [] [] ended)
    (stands : Stands origin (cuesOf (admitted.map Prod.fst))
      (before.backend.requests.map Request.outline) after) : Tells origin admitted after where
  allocated := by rw [adds.allocations, List.append_nil, tells.allocated]
  stands := by
    rw [adds.requests, List.append_nil]
    exact stands

theorem Tells.of_issue (tells : Tells origin admitted before) {refused : List (Request B.Image)}
    {ended : List Fate} {request : Request B.Image}
    (adds : before.backend.Adds after.backend [] [request] refused ended)
    (stands : Stands origin (cuesOf (admitted.map Prod.fst))
      (before.backend.requests.map Request.outline ++ [request.outline]) after) :
    Tells origin admitted after where
  allocated := by rw [adds.allocations, List.append_nil, tells.allocated]
  stands := by
    rw [adds.requests, List.map_append]
    exact stands

theorem Tells.move (tells : Tells origin admitted before)
    (move : Move before flight packets after later) : Tells origin admitted after := by
  cases move with
  | issue core free picks answers =>
      cases answers with
      | accepted asks answer =>
          obtain ⟨adds, _⟩ := Recorded.issue_adds answer
          exact tells.of_issue adds (tells.stands.accepted core picks asks rfl rfl)
  | refuse core picks answers =>
      cases answers with
      | refused asks answer cleared =>
          exact tells.of_issue (Recorded.refused_adds _ answer)
            (tells.stands.refused core picks asks cleared rfl)
  | @deliver _ front _ _ picture _ _ _ core found numbered delivers =>
      obtain ⟨same, foundSame, issued, _⟩ := (core.flying front.1).mp (by simp)
      cases find?_unique found foundSame
      cases delivers with
      | failed foundHere _ answer cleared =>
          cases find?_unique found foundHere
          exact tells.of_adds
            (Recorded.collected_adds _ answer)
            (tells.stands.leave core.tidy found issued advances_lose cleared rfl rfl rfl rfl)
      | coded foundHere _ _ answer cleared =>
          cases find?_unique found foundHere
          exact tells.of_adds
            (Recorded.collected_adds _ answer)
            (tells.stands.leave core.tidy found issued advances_handOver cleared rfl rfl rfl rfl)
  | finish core ended issued finishes =>
      have stands := tells.stands.finish ended issued finishes
      cases finishes with
      | retired pictures empty => exact tells.of_adds (Recorded.freed_adds _) stands

theorem Sound.running_of_waiting {ledger : Ledger B.recorded} (sound : before.Sound ledger)
    {frame : Frame} {rest : List Frame} (waiting : before.waiting = frame :: rest) :
    before.Running ledger ∧ before.scheduler.endOfStream = false := by
  rcases sound with running | finished
  · refine ⟨running, Bool.eq_false_iff.mpr fun ended => ?_⟩
    have nothing := (running.core.ended ended).1
    rw [waiting] at nothing
    cases nothing
  · have nothing := finished.waiting
    rw [waiting] at nothing
    cases nothing

theorem Tells.length_eq (tells : Tells origin admitted before)
    (goesOn : before.scheduler.endOfStream = false) :
    before.scheduler.inputOrder = admitted.length := by
  cases tells.stands with
  | within plot => rw [plot.entered, length_cuesOf, List.length_map]
  | through _ ended =>
      rw [goesOn] at ended
      cases ended

theorem Tells.frame {ledger : Ledger B.recorded} (tells : Tells origin admitted before)
    (sound : before.Sound ledger) {frame : Frame} {rest : List Frame} {image : B.recorded.Image}
    (waiting : before.waiting = frame :: rest)
    {middle : Encoder B.recorded} (window : middle.window = before.window)
    (scheduler : middle.scheduler = before.scheduler)
    (adds : before.backend.Adds middle.backend [(frame, some image)] [] [] []) :
    Tells origin (admitted ++ [(frame, image)]) (addPicture (B := B.recorded) frame image middle) := by
  obtain ⟨running, goesOn⟩ := sound.running_of_waiting waiting
  have count := tells.length_eq goesOn
  have same : (addPicture (B := B.recorded) frame image middle).backend = middle.backend := rfl
  constructor
  · rw [same, adds.allocations, tells.allocated, List.map_append]
    rfl
  · rw [same, adds.requests, List.append_nil, List.map_append, List.map_singleton, cuesOf_concat,
      List.length_map, ← count]
    cases tells.stands with
    | through _ ended =>
        rw [goesOn] at ended
        cases ended
    | within plot =>
        rw [← window, ← scheduler] at plot
        rw [← scheduler] at goesOn ⊢
        refine .within (plot.enter (fresh_ofFrame (B := B.recorded) _ frame _ image) rfl
          (fun first => ?_) goesOn)
        simp [Picture.ofFrame, first]

theorem Tells.ending (tells : Tells origin admitted before)
    (goesOn : before.scheduler.endOfStream = false) : Tells origin admitted before.signalEnd := by
  refine tells.of_adds (.refl _) ?_
  cases tells.stands with
  | within plot => exact .within plot.signalEnd
  | through _ ended =>
      rw [goesOn] at ended
      cases ended

theorem Tells.start {start : Recorded B} (nothing : start.calls = []) {config : Config} {gop : Gop}
    (valid : config.Valid) (made : Gop.ofConfig? config (B.recorded.capabilities start) = some gop)
    (mode : BlockingMode) : Tells { gop } [] (opened (B := B.recorded) start gop config mode) where
  allocated := by simp [Recorded.allocations, opened, nothing]
  stands := by
    have none : start.requests = [] := by simp [Recorded.requests, nothing]
    show Stands _ _ (start.requests.map Request.outline) _
    rw [none]
    exact .within (Plot.start (Gop.shallow_of_ofConfig? valid made))

end

end Encoder

end VideoSchedule

import VideoSchedule.Encoder.Client
import VideoSchedule.Proofs.Group
import VideoSchedule.Proofs.Retirement

/-!
The state of a session between its elementary changes. A `Ledger` is whatever can be known of a
backend from the calls it got, as long as every call keeps to what an encoder promises; the invariant
is proved once for all ledgers.
-/

namespace VideoSchedule

open VideoSchedule.Action

def Request.images {ι : Type} (request : Request ι) : List ι :=
  request.image :: (request.past ++ request.future ++ request.dpb).map ReferencePicture.image

/-- A fact about a backend, the images that are not freed and the requests in flight. Requests name
images that are not freed, and an image in use by a request in flight is not freed. -/
structure Ledger (B : Backend) where
  Holds : B.State → List B.Image → List (B.Promise × Request B.Image) → Prop
  perm : ∀ {state live other flying}, Holds state live flying → live.Perm other →
    Holds state other flying
  alloc : ∀ {state live flying} frame, Holds state live flying →
    match (B.alloc frame state).1 with
    | .ok image => Holds (B.alloc frame state).2 (image :: live) flying
    | .error _ => Holds (B.alloc frame state).2 live flying
  issue : ∀ {state live flying} request, Holds state live flying →
    (∀ image ∈ request.images, image ∈ live) →
    (∀ record ∈ flying, record.2.picture.displayOrder ≠ request.picture.displayOrder) →
    match (B.issue request state).1 with
    | .ok promise => Holds (B.issue request state).2 live (flying ++ [(promise, request)])
    | .error _ => Holds (B.issue request state).2 live flying
  sync : ∀ {state live flying promise request}, Holds state live ((promise, request) :: flying) →
    Holds (B.sync promise state).2 live flying
  output : ∀ {state live flying image} coded, Holds state live flying → image ∈ live →
    Holds (B.output image coded state).2 live flying
  free : ∀ {state live flying image}, Holds state (image :: live) flying →
    (∀ record ∈ flying, ∀ used ∈ record.2.images, used ∈ live) →
    Holds (B.free image state) live flying

namespace Encoder

variable {B : Backend} {ledger : Ledger B} {encoder : Encoder B}
  {landed : List Handle} {flight : List (Handle × B.Promise)}

/-- A request belongs to a live picture and names what that picture holds. -/
def Names (window : Window B.Image) (handle : Handle) (request : Request B.Image) : Prop :=
  ∃ picture, window.find? handle = some picture ∧
    request.picture.displayOrder = picture.displayOrder ∧
    ∀ image ∈ request.images, ∃ target ∈ handle :: picture.held, ∃ named,
      window.find? target = some named ∧ named.image = some image

structure Carries (window : Window B.Image) (entry : Handle × B.Promise)
    (record : B.Promise × Request B.Image) : Prop where
  promise : record.1 = entry.2
  names : Names window entry.1 record.2

/-- What holds between the elementary changes of a session. `flight` are the pictures that the
backend is encoding, `landed` those that it is done with and that are not complete yet. -/
structure Core (ledger : Ledger B) (encoder : Encoder B) (landed : List Handle)
    (flight : List (Handle × B.Promise)) : Prop where
  tidy : encoder.window.Tidy encoder.scheduler.past.recent
  arranged : ∃ laid fresh, encoder.scheduler.Arranged encoder.window laid fresh
  distinct : (landed ++ flight.map Prod.fst).Nodup
  flying : ∀ handle, handle ∈ landed ++ flight.map Prod.fst ↔ ∃ picture,
    encoder.window.find? handle = some picture ∧ picture.issued = true ∧ picture.complete = false
  numbered : ∀ handle picture, encoder.window.find? handle = some picture →
    picture.issued = true → picture.encodeOrder.isSome = true
  ended : encoder.scheduler.endOfStream = true → encoder.waiting = [] ∧ encoder.draining = true
  stocked : encoder.window.Stocked
  records : ∃ records, ledger.Holds encoder.backend encoder.window.images records ∧
    List.Forall₂ (Carries encoder.window) flight records

/-- What holds of a session that still has pictures to encode or may get more. -/
structure Running (ledger : Ledger B) (encoder : Encoder B) : Prop where
  core : encoder.Core ledger [] encoder.queue.promises
  capacity : 0 < encoder.queue.capacity
  room : encoder.queue.size ≤ encoder.queue.capacity
  direct : encoder.caps.pipelined = false → encoder.queue.promises = []

structure Ended (ledger : Ledger B) (encoder : Encoder B) : Prop where
  window : encoder.window.handles = []
  queue : encoder.queue.promises = []
  waiting : encoder.waiting = []
  stopped : encoder.failed = true ∨ encoder.scheduler.endOfStream = true ∧ encoder.draining = true
  records : ledger.Holds encoder.backend [] []

def Sound (ledger : Ledger B) (encoder : Encoder B) : Prop :=
  encoder.Running ledger ∨ encoder.Ended ledger

theorem Sound.stocked (sound : encoder.Sound ledger) : encoder.window.Stocked := by
  rcases sound with running | ended
  · exact running.core.stocked
  · intro handle picture found
    have live := Window.mem_handles_of_find? found
    rw [ended.window] at live
    cases live

/-! Actions on the parts of a session. -/

section

variable {α : Type} {result : Except EncodeError α}

theorem onWindow_runs {action : Action (Window B.Image) α} {window : Window B.Image}
    (runs : Runs action encoder.window result window) :
    Runs (onWindow action) encoder result { encoder with window } := by
  unfold onWindow
  exact Runs.zoom_to (by exact runs) rfl

theorem onSchedule_runs {action : Action (Scheduler × Window B.Image) α} {scheduler : Scheduler}
    {window : Window B.Image}
    (runs : Runs action (encoder.scheduler, encoder.window) result (scheduler, window)) :
    Runs (onSchedule action) encoder result { encoder with scheduler, window } := by
  unfold onSchedule
  exact Runs.zoom_to (by exact runs) rfl

theorem onClock_runs {action : Action DecodeClock α} {clock : DecodeClock}
    (runs : Runs action encoder.clock result clock) :
    Runs (onClock action) encoder result { encoder with clock } := by
  unfold onClock
  exact Runs.zoom_to (by exact runs) rfl

theorem onQueue_runs {action : Action (OutputQueue (Handle × B.Promise)) α}
    {queue : OutputQueue (Handle × B.Promise)} (runs : Runs action encoder.queue result queue) :
    Runs (onQueue action) encoder result { encoder with queue } := by
  unfold onQueue
  exact Runs.zoom_to (by exact runs) rfl

theorem onBackend_runs (call : B.State → α × B.State) (encoder : Encoder B) :
    Runs (onBackend call) encoder (.ok (call encoder.backend).1)
      { encoder with backend := (call encoder.backend).2 } :=
  runs_update _ _

end

/-! Changes of the invariant. -/

theorem Carries.mono {before after : Window B.Image} {entry : Handle × B.Promise}
    {record : B.Promise × Request B.Image} (carries : Carries before entry record)
    (self : ∀ picture, before.find? entry.1 = some picture → ∃ other,
      after.find? entry.1 = some other ∧ other.displayOrder = picture.displayOrder ∧
        other.held = picture.held)
    (targets : ∀ picture, before.find? entry.1 = some picture →
      ∀ target ∈ entry.1 :: picture.held, ∀ named, before.find? target = some named →
        ∃ other, after.find? target = some other ∧ other.image = named.image) :
    Carries after entry record := by
  obtain ⟨picture, found, order, names⟩ := carries.names
  obtain ⟨other, foundOther, orderEq, heldEq⟩ := self picture found
  refine ⟨carries.promise, other, foundOther, order.trans orderEq.symm, fun image member => ?_⟩
  obtain ⟨target, isTarget, named, foundNamed, imageEq⟩ := names image member
  obtain ⟨later, foundLater, sameImage⟩ := targets picture found target isTarget named foundNamed
  exact ⟨target, by rwa [heldEq], later, foundLater, sameImage.trans imageEq⟩

theorem Core.congr {other : Encoder B} (core : encoder.Core ledger landed flight)
    (backend : other.backend = encoder.backend) (window : other.window = encoder.window)
    (recent : other.scheduler.past.recent = encoder.scheduler.past.recent)
    (inputOrder : other.scheduler.inputOrder = encoder.scheduler.inputOrder)
    (depth : other.scheduler.gop.maxBDepth = encoder.scheduler.gop.maxBDepth)
    (ended : other.scheduler.endOfStream = true → other.waiting = [] ∧ other.draining = true) :
    other.Core ledger landed flight := by
  obtain ⟨laid, fresh, arranged⟩ := core.arranged
  constructor
  case tidy =>
    rw [window, recent]
    exact core.tidy
  case arranged =>
    rw [window]
    exact ⟨laid, fresh, arranged.of_scheduler recent inputOrder depth⟩
  case distinct => exact core.distinct
  case flying =>
    rw [window]
    exact core.flying
  case numbered =>
    rw [window]
    exact core.numbered
  case ended => exact ended
  case stocked =>
    rw [window]
    exact core.stocked
  case records =>
    rw [backend, window]
    exact core.records

structure Advances (change : Picture B.Image → Picture B.Image) : Prop where
  layout : ∀ picture, (change picture).layout = picture.layout
  issued : ∀ picture, (change picture).issued = picture.issued
  complete : ∀ picture, picture.complete = true → (change picture).complete = true
  holds : ∀ picture, (change picture).holds = picture.holds
  released : ∀ picture, (change picture).released = picture.released
  numbered : ∀ picture, picture.encodeOrder.isSome = true →
    (change picture).encodeOrder.isSome = true

theorem Advances.held {change : Picture B.Image → Picture B.Image} (advances : Advances change)
    (picture : Picture B.Image) : (change picture).held = picture.held :=
  (congrArg Picture.held (advances.layout picture) :)

theorem Advances.image {change : Picture B.Image → Picture B.Image} (advances : Advances change)
    (picture : Picture B.Image) : (change picture).image = picture.image :=
  (congrArg Picture.image (advances.layout picture) :)

theorem Advances.claims {change : Picture B.Image → Picture B.Image} (advances : Advances change)
    (level : HoldLevel) (picture : Picture B.Image) :
    (change picture).claims level = picture.claims level := by
  rw [Picture.claims, Picture.claims, advances.released, advances.held]

theorem Carries.adjust {window : Window B.Image} {entry : Handle × B.Promise}
    {record : B.Promise × Request B.Image} (carries : Carries window entry record) (handle : Handle)
    {change : Picture B.Image → Picture B.Image}
    (layout : ∀ picture, (change picture).layout = picture.layout) :
    Carries (window.adjust handle change) entry record := by
  have adjusted : ∀ {key : Handle} {picture : Picture B.Image}, window.find? key = some picture →
      ∃ other, (window.adjust handle change).find? key = some other ∧
        other.layout = picture.layout := by
    intro key picture found
    by_cases same : key = handle
    · subst same
      exact ⟨_, Window.find?_adjust_self found change, layout picture⟩
    · exact ⟨picture, by rwa [Window.find?_adjust_of_ne same], rfl⟩
  refine carries.mono (fun picture found => ?_) fun picture found target _ named foundNamed => ?_
  · obtain ⟨other, foundOther, same⟩ := adjusted found
    exact ⟨other, foundOther, (congrArg Picture.displayOrder same :),
      (congrArg Picture.held same :)⟩
  · obtain ⟨other, foundOther, same⟩ := adjusted foundNamed
    exact ⟨other, foundOther, (congrArg Picture.image same :)⟩

theorem Advances.tidy {change : Picture B.Image → Picture B.Image} (advances : Advances change)
    {window : Window B.Image} {recent : List Handle} (tidy : window.Tidy recent) {handle : Handle}
    {picture : Picture B.Image} (found : window.find? handle = some picture)
    (issued : picture.issued = true) : (window.adjust handle change).Tidy recent := by
  have consistent := tidy.consistent handle picture found
  refine tidy.adjust advances.holds advances.claims fun same foundSame => ?_
  cases Window.find?_unique found foundSame
  refine ⟨fun _ => (advances.issued picture).trans issued, ?_, ?_⟩
  · rw [advances.released]
    exact fun direct => advances.complete picture (consistent.complete direct)
  · rw [advances.released]
    exact consistent.direct

theorem Core.adjust (core : encoder.Core ledger landed flight) {handle : Handle}
    {picture : Picture B.Image} (found : encoder.window.find? handle = some picture)
    (issued : picture.issued = true) {change : Picture B.Image → Picture B.Image}
    (advances : Advances change) {left : List Handle}
    (distinct : (left ++ flight.map Prod.fst).Nodup)
    (flying : ∀ key, key ∈ left ++ flight.map Prod.fst ↔
      key ∈ landed ++ flight.map Prod.fst ∧ (key = handle → (change picture).complete = false)) :
    ({ encoder with window := encoder.window.adjust handle change } : Encoder B).Core ledger left
      flight := by
  obtain ⟨laid, fresh, arranged⟩ := core.arranged
  obtain ⟨isLaid, apart⟩ := arranged.laid_of_issued found issued
  have continues : ∀ picture : Picture B.Image, picture.Continues (change picture) :=
    fun picture => ⟨advances.layout picture, fun issued => (advances.issued picture).trans issued⟩
  constructor
  case tidy => exact advances.tidy core.tidy found issued
  case arranged => exact ⟨laid, fresh, arranged.adjust isLaid apart continues advances.released⟩
  case distinct => exact distinct
  case flying =>
    intro key
    rw [flying, core.flying]
    by_cases same : key = handle
    · subst same
      rw [Window.find?_adjust_self found]
      simp only [found, Option.some.injEq, exists_eq_left', forall_const, advances.issued]
      constructor
      · rintro ⟨⟨isIssued, _⟩, incomplete⟩
        exact ⟨isIssued, incomplete⟩
      · rintro ⟨isIssued, incomplete⟩
        refine ⟨⟨isIssued, ?_⟩, incomplete⟩
        cases complete : picture.complete with
        | false => rfl
        | true =>
            rw [advances.complete picture complete] at incomplete
            cases incomplete
    · rw [Window.find?_adjust_of_ne same]
      simp [same]
  case numbered =>
    intro key current foundCurrent isIssued
    rw [Window.find?_adjust] at foundCurrent
    split at foundCurrent
    next same =>
      subst same
      obtain ⟨old, foundOld, rfl⟩ := Option.map_eq_some_iff.mp foundCurrent
      rw [advances.issued] at isIssued
      exact advances.numbered old (core.numbered key old foundOld isIssued)
    next => exact core.numbered key current foundCurrent isIssued
  case ended => exact core.ended
  case stocked => exact core.stocked.adjust handle advances.image
  case records =>
    obtain ⟨records, holds, carries⟩ := core.records
    rw [← Window.images_adjust handle advances.image] at holds
    exact ⟨records, holds, carries.imp fun _ _ carried => carried.adjust handle advances.layout⟩

theorem Core.touch (core : encoder.Core ledger landed flight) {handle : Handle}
    {picture : Picture B.Image} (found : encoder.window.find? handle = some picture)
    (issued : picture.issued = true) {change : Picture B.Image → Picture B.Image}
    (advances : Advances change) (complete : (change picture).complete = picture.complete) :
    ({ encoder with window := encoder.window.adjust handle change } : Encoder B).Core ledger landed
      flight := by
  refine core.adjust found issued advances core.distinct fun key => ⟨fun member => ⟨member, ?_⟩,
    fun both => both.1⟩
  rintro rfl
  obtain ⟨same, foundSame, _, incomplete⟩ := (core.flying key).mp member
  cases Window.find?_unique found foundSame
  exact complete.trans incomplete

theorem Core.finish {handle : Handle} (core : encoder.Core ledger [handle] flight)
    {change : Picture B.Image → Picture B.Image} (advances : Advances change)
    (complete : ∀ picture, (change picture).complete = true) :
    ({ encoder with window := encoder.window.adjust handle change } : Encoder B).Core ledger []
      flight := by
  obtain ⟨picture, found, issued, _⟩ := (core.flying handle).mp (by simp)
  have distinct := core.distinct
  simp only [List.cons_append, List.nil_append, List.nodup_cons] at distinct
  refine core.adjust found issued advances distinct.2 fun key => ?_
  simp only [List.nil_append, List.cons_append, List.mem_cons, complete, Bool.true_eq_false]
  constructor
  · intro member
    exact ⟨Or.inr member, fun same => distinct.1 (same ▸ member)⟩
  · rintro ⟨same | member, apart⟩
    · exact absurd same apart
    · exact member

/-! Pictures that leave. -/

def freed (backend : B.State) (gone : List (Picture B.Image)) : B.State :=
  gone.foldl (fun state picture => giveBack picture state) backend

theorem holds_freed {live : List B.Image} {records : List (B.Promise × Request B.Image)}
    (gone : List (Picture B.Image)) {state : B.State}
    (holds : ledger.Holds state (gone.filterMap Picture.image ++ live) records)
    (used : ∀ record ∈ records, ∀ image ∈ record.2.images, image ∈ live) :
    ledger.Holds (freed state gone) live records := by
  induction gone generalizing state with
  | nil => exact holds
  | cons picture rest ih =>
      refine ih ?_
      cases held : picture.image with
      | none =>
          rw [List.filterMap_cons_none held] at holds
          simpa only [giveBack, held] using holds
      | some image =>
          rw [List.filterMap_cons_some held] at holds
          simp only [giveBack, held]
          refine ledger.free holds fun record member image named => ?_
          exact List.mem_append_right _ (used record member image named)

def discard (gone : List (Picture B.Image)) (window : Window B.Image) (encoder : Encoder B) :
    Encoder B :=
  { encoder with
    window
    failedPictures := encoder.failedPictures + gone.countP Picture.failed
    backend := freed encoder.backend gone }

theorem freeAll_runs (gone : List (Picture B.Image)) (encoder : Encoder B) :
    Runs (freeAll gone) encoder (.ok ()) (encoder.discard gone encoder.window) := by
  induction gone generalizing encoder with
  | nil => exact runs_forM_nil _ _
  | cons picture rest ih =>
      have runs := ih { encoder with
        failedPictures := encoder.failedPictures + picture.failed.toNat
        backend := giveBack picture encoder.backend }
      refine Runs.forM_cons (runs_modify _ _) ?_
      have counted : (picture :: rest).countP Picture.failed =
          picture.failed.toNat + rest.countP Picture.failed := by
        rw [List.countP_cons, Nat.add_comm]
        cases picture.failed <;> rfl
      rw [discard, counted, ← Nat.add_assoc]
      exact runs

theorem Names.image_mem {window : Window B.Image} {handle : Handle} {request : Request B.Image}
    (names : Names window handle request) :
    ∀ image ∈ request.images, image ∈ window.images := by
  intro image member
  obtain ⟨_, _, _, named⟩ := names
  obtain ⟨_, _, _, found, held⟩ := named image member
  exact Window.mem_images found held

theorem exists_of_mem_right {α β : Type} {relation : α → β → Prop} {left : List α}
    {right : List β} (related : List.Forall₂ relation left right) :
    ∀ other ∈ right, ∃ value ∈ left, relation value other := by
  induction related with
  | nil => simp
  | cons head _ ih =>
      intro other member
      rcases List.mem_cons.mp member with rfl | later
      · exact ⟨_, List.mem_cons_self .., head⟩
      · obtain ⟨value, isLeft, holds⟩ := ih other later
        exact ⟨value, List.mem_cons_of_mem _ isLeft, holds⟩

theorem images_mem {window : Window B.Image} {records : List (B.Promise × Request B.Image)}
    (carries : List.Forall₂ (Carries window) flight records) :
    ∀ record ∈ records, ∀ image ∈ record.2.images, image ∈ window.images := by
  intro record member
  obtain ⟨_, _, carried⟩ := exists_of_mem_right carries record member
  exact carried.names.image_mem

theorem forall₂_imp_of_mem {α β : Type} {first second : α → β → Prop} {left : List α}
    {right : List β} (related : List.Forall₂ first left right)
    (implies : ∀ value ∈ left, ∀ other, first value other → second value other) :
    List.Forall₂ second left right := by
  induction related with
  | nil => exact List.Forall₂.nil
  | cons head _ ih =>
      exact List.Forall₂.cons (implies _ (List.mem_cons_self ..) _ head)
        (ih fun value member => implies value (List.mem_cons_of_mem _ member))

theorem Carries.cleared {before after : Window B.Image} {recent : List Handle}
    {gone : List (Picture B.Image)} (cleared : Retirement.Cleared recent gone before after)
    {entry : Handle × B.Promise} {record : B.Promise × Request B.Image}
    (carries : Carries before entry record) {picture : Picture B.Image}
    (found : before.find? entry.1 = some picture) (incomplete : picture.complete = false) :
    Carries after entry record := by
  obtain ⟨other, foundOther, stay⟩ := cleared.incomplete found incomplete
  refine carries.mono (fun same foundSame => ?_) fun same foundSame target isTarget named
    foundNamed => ?_
  · cases Window.find?_unique found foundSame
    exact ⟨other, foundOther, (congrArg Picture.displayOrder stay.core :), stay.held⟩
  · cases Window.find?_unique found foundSame
    -- An incomplete picture has given up none of its holds, so what it names has not left.
    have live : target ∈ after.handles := by
      rcases List.mem_cons.mp isTarget with rfl | isHeld
      · exact Window.mem_handles_of_find? foundOther
      · rw [← stay.held] at isHeld
        exact cleared.tidy.held_live_of_incomplete foundOther (stay.complete.trans incomplete)
          target isHeld
    obtain ⟨later, foundLater⟩ := Window.exists_of_mem_handles live
    obtain ⟨old, foundOld, stayTarget⟩ := cleared.back foundLater
    cases Window.find?_unique foundNamed foundOld
    exact ⟨later, foundLater, (congrArg Picture.image stayTarget.core :)⟩

theorem filterMap_core (pictures : List (Picture B.Image)) :
    (pictures.map Picture.core).filterMap Picture.image = pictures.filterMap Picture.image := by
  rw [List.filterMap_map]
  rfl

open Retirement in
theorem Core.cleared (core : encoder.Core ledger landed flight) {gone : List (Picture B.Image)}
    {after : Window B.Image}
    (cleared : Cleared encoder.scheduler.past.recent gone encoder.window after) :
    ({ encoder with window := after, backend := freed encoder.backend gone } : Encoder B).Core
      ledger landed flight := by
  obtain ⟨laid, fresh, arranged⟩ := core.arranged
  constructor
  case tidy => exact cleared.tidy
  case arranged =>
    obtain ⟨remaining, ordered, _⟩ := arranged.cleared cleared core.tidy
    exact ⟨remaining, fresh, ordered⟩
  case distinct => exact core.distinct
  case flying =>
    intro handle
    rw [core.flying]
    constructor
    · rintro ⟨picture, found, issued, incomplete⟩
      obtain ⟨other, foundOther, stay⟩ := cleared.incomplete found incomplete
      exact ⟨other, foundOther, stay.issued.trans issued, stay.complete.trans incomplete⟩
    · rintro ⟨other, foundOther, issued, incomplete⟩
      obtain ⟨picture, found, stay⟩ := cleared.back foundOther
      exact ⟨picture, found, stay.issued.symm.trans issued, stay.complete.symm.trans incomplete⟩
  case numbered =>
    intro handle other foundOther issued
    obtain ⟨picture, found, stay⟩ := cleared.back foundOther
    have orderEq : other.encodeOrder = picture.encodeOrder :=
      (congrArg Picture.encodeOrder stay.core :)
    rw [orderEq]
    exact core.numbered handle picture found (stay.issued.symm.trans issued)
  case ended => exact core.ended
  case stocked =>
    refine core.stocked.of_origin fun handle other foundOther => ?_
    obtain ⟨picture, found, stay⟩ := cleared.back foundOther
    exact ⟨picture, found, (congrArg Picture.image stay.core :)⟩
  case records =>
    obtain ⟨records, holds, carries⟩ := core.records
    have carriesAfter : List.Forall₂ (Carries after) flight records := by
      refine forall₂_imp_of_mem carries fun entry member record carried => ?_
      obtain ⟨picture, found, _, incomplete⟩ := (core.flying entry.1).mp
        (List.mem_append_right _ (List.mem_map_of_mem member))
      exact carried.cleared cleared found incomplete
    refine ⟨records, ?_, carriesAfter⟩
    refine holds_freed gone (ledger.perm holds ?_) (images_mem carriesAfter)
    have moved := cleared.pictures.filterMap Picture.image
    rwa [List.filterMap_append, filterMap_core, filterMap_core, filterMap_core] at moved

theorem unissued_cleared {recent : List Handle} {gone : List (Picture B.Image)}
    {before after : Window B.Image} (cleared : Retirement.Cleared recent gone before after) :
    after.pictures.countP (fun picture => !picture.issued) =
      before.pictures.countP fun picture => !picture.issued := by
  have cores : ∀ pictures : List (Picture B.Image),
      (pictures.map Picture.core).countP (fun picture => !picture.issued) =
        pictures.countP fun picture => !picture.issued := by
    intro pictures
    rw [List.countP_map]
    rfl
  have counted := cleared.pictures.countP_eq fun picture => !picture.issued
  rw [List.countP_append, cores, cores, cores] at counted
  have none : gone.countP (fun picture => !picture.issued) = 0 :=
    List.countP_eq_zero.mpr fun picture member => by simp [cleared.gone picture member]
  omega

/-! Pictures that come in. -/

theorem fresh_ofFrame (order : Nat) (frame : Frame) (forced : Bool) (image : B.Image) :
    (Picture.ofFrame order frame forced image).Fresh where
  past := rfl
  future := rfl
  dpb := rfl
  previous := rfl
  released := rfl
  type := rfl
  waiting := rfl

theorem Core.enter (core : encoder.Core ledger landed flight) (frame : Frame) {image : B.Image}
    (allocated : (B.alloc frame encoder.backend).1 = .ok image) :
    (addPicture frame image { encoder with
      backend := (B.alloc frame encoder.backend).2 }).Core ledger landed flight := by
  obtain ⟨laid, fresh, arranged⟩ := core.arranged
  have isFresh := fresh_ofFrame encoder.scheduler.inputOrder frame
    (encoder.scheduler.inputOrder == 0 || frame.forceKey) image
  generalize pictureEq : Picture.ofFrame encoder.scheduler.inputOrder frame
    (encoder.scheduler.inputOrder == 0 || frame.forceKey) image = picture at isFresh
  have windowEq : (addPicture frame image { encoder with
      backend := (B.alloc frame encoder.backend).2 }).window =
      (encoder.window.enter picture).2 := by
    rw [← pictureEq]
    rfl
  have imageEq : picture.image = some image := by
    rw [← pictureEq]
    rfl
  have keeps : ∀ {handle : Handle} {old : Picture B.Image},
      encoder.window.find? handle = some old →
        (encoder.window.enter picture).2.find? handle = some old :=
    Window.find?_enter_of_find? picture
  have original : ∀ {handle : Handle} {old : Picture B.Image},
      (encoder.window.enter picture).2.find? handle = some old → old.issued = true →
        encoder.window.find? handle = some old := by
    intro handle old found issued
    rw [Window.find?_enter picture handle _] at found
    split at found
    · cases found
      rw [isFresh.waiting] at issued
      cases issued
    · exact found
  constructor
  case tidy =>
    rw [windowEq]
    refine core.tidy.enter (fun handle member => ?_) isFresh ?_ ?_
    · obtain ⟨_, _, found, _⟩ := arranged.recents handle member
      exact Window.mem_handles_of_find? found
    · rw [← pictureEq]
      rfl
    · rw [← pictureEq]
      rfl
  case arranged =>
    rw [windowEq]
    refine ⟨laid, _, arranged.enter isFresh ?_ fun start => ?_⟩
    · rw [← pictureEq]
      rfl
    · rw [← pictureEq]
      simp [Picture.ofFrame, start]
  case distinct => exact core.distinct
  case flying =>
    intro handle
    rw [core.flying, windowEq]
    constructor
    · rintro ⟨old, found, issued, incomplete⟩
      exact ⟨old, keeps found, issued, incomplete⟩
    · rintro ⟨old, found, issued, incomplete⟩
      exact ⟨old, original found issued, issued, incomplete⟩
  case numbered =>
    intro handle old found issued
    rw [windowEq] at found
    exact core.numbered handle old (original found issued) issued
  case ended => exact core.ended
  case stocked =>
    rw [windowEq]
    exact core.stocked.enter imageEq
  case records =>
    obtain ⟨records, holds, carries⟩ := core.records
    rw [windowEq]
    refine ⟨records, ?_, carries.imp fun entry record carried => carried.mono
      (fun old found => ⟨old, keeps found, rfl, rfl⟩)
      fun _ _ _ _ old found => ⟨old, keeps found, rfl⟩⟩
    have held := ledger.alloc frame holds
    rw [allocated] at held
    refine ledger.perm held ?_
    rw [Window.images_enter imageEq]
    exact (List.perm_append_singleton image _).symm

/-! The next picture. -/

/-- What holds while a picture was picked and is not issued yet. -/
structure Ready (ledger : Ledger B) (encoder : Encoder B) (handle : Handle)
    (flight : List (Handle × B.Promise)) : Prop where
  pickable : Scheduler.Pickable encoder.scheduler encoder.window handle
  distinct : (flight.map Prod.fst).Nodup
  flying : ∀ key, key ∈ flight.map Prod.fst ↔ ∃ picture,
    encoder.window.find? key = some picture ∧ picture.issued = true ∧ picture.complete = false
  numbered : ∀ key picture, encoder.window.find? key = some picture →
    picture.issued = true → picture.encodeOrder.isSome = true
  ended : encoder.scheduler.endOfStream = true → encoder.waiting = [] ∧ encoder.draining = true
  stocked : encoder.window.Stocked
  records : ∃ records, ledger.Holds encoder.backend encoder.window.images records ∧
    List.Forall₂ (Carries encoder.window) flight records

open Scheduler Window in
theorem Core.ready (core : encoder.Core ledger [] flight) {handle : Handle} {other : Scheduler}
    {after : Window B.Image}
    (schedules : Schedules encoder.scheduler encoder.window other after)
    (pickable : Pickable other after handle) :
    ({ encoder with scheduler := other, window := after } : Encoder B).Ready ledger handle
      flight := by
  obtain ⟨touched, rewrites, fresh⟩ := schedules.rewrites
  have issuedApart : ∀ {key : Handle} {picture : Picture B.Image},
      encoder.window.find? key = some picture → picture.issued = true → key ∉ touched := by
    intro key picture found issued member
    obtain ⟨same, foundSame, isFresh⟩ := fresh key member
    cases Window.find?_unique found foundSame
    rw [isFresh.waiting] at issued
    cases issued
  refine ⟨pickable, core.distinct, fun key => ?_, fun key picture found issued => ?_, ?_,
    core.stocked.of_origin fun key picture found => ?_, ?_⟩
  · rw [← List.nil_append (flight.map Prod.fst), core.flying]
    constructor
    · rintro ⟨picture, found, issued, incomplete⟩
      obtain ⟨later, foundLater, same⟩ := rewrites.find? found
      exact ⟨later, foundLater, (congrArg Picture.issued same :).trans issued,
        (congrArg Picture.complete same :).trans incomplete⟩
    · rintro ⟨picture, found, issued, incomplete⟩
      obtain ⟨old, foundOld, same⟩ := rewrites.find?_origin found
      exact ⟨old, foundOld, (congrArg Picture.issued same :).symm.trans issued,
        (congrArg Picture.complete same :).symm.trans incomplete⟩
  · obtain ⟨old, foundOld, same⟩ := rewrites.find?_origin found
    have orderEq : picture.encodeOrder = old.encodeOrder := (congrArg Picture.encodeOrder same :)
    rw [orderEq]
    exact core.numbered key old foundOld ((congrArg Picture.issued same :).symm.trans issued)
  · intro ended
    exact core.ended (schedules.endOfStream.symm.trans ended)
  · obtain ⟨old, foundOld, same⟩ := rewrites.find?_origin found
    exact ⟨old, foundOld, (congrArg Picture.image same :)⟩
  · obtain ⟨records, holds, carries⟩ := core.records
    have images : after.images = encoder.window.images := images_eq_of_map_eq
      (pictures_map_eq_of_plain_eq rewrites.plain Picture.image fun _ => rfl)
    rw [← images] at holds
    refine ⟨records, holds, forall₂_imp_of_mem carries fun entry member record carried => ?_⟩
    obtain ⟨picture, found, issued, _⟩ :=
      (core.flying entry.1).mp (List.mem_append_right _ (List.mem_map_of_mem member))
    refine carried.mono (fun same foundSame => ?_) fun _ _ target _ named foundNamed => ?_
    · cases Window.find?_unique found foundSame
      obtain ⟨_, foundAfter⟩ := rewrites.find?_other found (issuedApart found issued)
      exact ⟨_, foundAfter, rfl, rfl⟩
    · obtain ⟨later, foundLater, plain⟩ := rewrites.find? foundNamed
      exact ⟨later, foundLater, (congrArg Picture.image plain :)⟩

end Encoder

end VideoSchedule

import VideoSchedule.Proofs.Session

/-!
Issuing a picture. The request names live pictures only; the backend takes it, and the picture is in
flight, or refuses it, and the picture is complete without a packet.
-/

namespace VideoSchedule.Encoder

open VideoSchedule.Action Window Scheduler

variable {B : Backend} {ledger : Ledger B} {encoder : Encoder B}
  {flight : List (Handle × B.Promise)} {handle : Handle}

def number (encodeOrder : Nat) (picture : Picture B.Image) : Picture B.Image :=
  { picture with encodeOrder := some encodeOrder }

theorem referencePicture_found {window : Window B.Image} {target : Handle}
    {picture : Picture B.Image} {image : B.Image} (found : window.find? target = some picture)
    (held : picture.image = some image) :
    referencePicture window target = .ok { info := picture.info, image } := by
  simp only [referencePicture, found, held]

theorem referencesOf_cons {window : Window B.Image} {handle target : Handle} (rest : List Handle)
    (other : target ≠ handle) {reference : ReferencePicture B.Image}
    (refers : referencePicture window target = .ok reference) :
    referencesOf window handle (target :: rest) =
      (referencesOf window handle rest).map (reference :: ·) := by
  rw [referencesOf, if_neg other, refers]
  cases referencesOf window handle rest <;> rfl

theorem referencesOf_cons_ok {window : Window B.Image} {handle target : Handle} {rest : List Handle}
    (other : target ≠ handle) {references : List (ReferencePicture B.Image)}
    (listed : referencesOf window handle (target :: rest) = .ok references) :
    ∃ reference others, referencePicture window target = .ok reference ∧
      referencesOf window handle rest = .ok others ∧ references = reference :: others := by
  cases refers : referencePicture window target with
  | error cause =>
      rw [referencesOf, if_neg other, refers] at listed
      cases listed
  | ok reference =>
      rw [referencesOf_cons rest other refers] at listed
      cases listedRest : referencesOf window handle rest with
      | error cause =>
          rw [listedRest] at listed
          cases listed
      | ok others =>
          rw [listedRest] at listed
          cases listed
          exact ⟨reference, others, rfl, rfl, rfl⟩

theorem referencesOf_ok {window : Window B.Image} (stocked : window.Stocked) (handle : Handle)
    (targets : List Handle) (live : ∀ target ∈ targets, target ∈ window.handles) :
    ∃ references, referencesOf window handle targets = .ok references ∧
      ∀ reference ∈ references, ∃ target ∈ targets, ∃ named,
        window.find? target = some named ∧ named.image = some reference.image := by
  induction targets with
  | nil => exact ⟨[], rfl, by simp⟩
  | cons target rest ih =>
      obtain ⟨references, listed, named⟩ :=
        ih fun other member => live other (List.mem_cons_of_mem _ member)
      have named : ∀ reference ∈ references, ∃ other ∈ target :: rest, ∃ picture,
          window.find? other = some picture ∧ picture.image = some reference.image := by
        intro reference member
        obtain ⟨other, isTarget, facts⟩ := named reference member
        exact ⟨other, List.mem_cons_of_mem _ isTarget, facts⟩
      by_cases self : target = handle
      · exact ⟨references, by rw [referencesOf, if_pos self, listed], named⟩
      · obtain ⟨picture, found⟩ := exists_of_mem_handles (live target (List.mem_cons_self ..))
        obtain ⟨image, held⟩ := stocked target picture found
        refine ⟨⟨picture.info, image⟩ :: references, ?_, ?_⟩
        · rw [referencesOf_cons rest self (referencePicture_found found held), listed]
          rfl
        · intro reference member
          rcases List.mem_cons.mp member with rfl | later
          · exact ⟨target, List.mem_cons_self .., picture, found, held⟩
          · exact named reference later

theorem referencesOf_adjust (window : Window B.Image) (handle : Handle)
    (change : Picture B.Image → Picture B.Image) (targets : List Handle) :
    referencesOf (window.adjust handle change) handle targets =
      referencesOf window handle targets := by
  induction targets with
  | nil => rfl
  | cons target rest ih =>
      rw [referencesOf, referencesOf, ih]
      split
      next => rfl
      next other =>
        rw [referencePicture, find?_adjust_of_ne other]
        rfl

def withdraw (picture : Picture B.Image) : Picture B.Image := { picture with image := none }

def putBack (image : B.Image) (picture : Picture B.Image) : Picture B.Image :=
  { picture with image := some image, issued := true }

/-- The request for a picture of a window. -/
structure Asks (window : Window B.Image) (handle : Handle) (picture : Picture B.Image)
    (request : Request B.Image) : Prop where
  found : window.find? handle = some picture
  info : request.picture = picture.info
  image : picture.image = some request.image
  past : referencesOf window handle picture.past = .ok request.past
  future : referencesOf window handle picture.future = .ok request.future
  dpb : referencesOf window handle picture.dpb = .ok request.dpb

theorem requestFor_runs {window : Window B.Image} {picture : Picture B.Image} {image : B.Image}
    (asking : encoder.window = window.adjust handle withdraw)
    (found : window.find? handle = some picture) (held : picture.image = some image)
    (stocked : window.Stocked) (live : ∀ target ∈ picture.held, target ∈ window.handles) :
    ∃ request, Runs (requestFor handle image) encoder (.ok request) encoder ∧
      Asks window handle picture request ∧ Names window handle request := by
  have fetching : encoder.window.find? handle = some (withdraw picture) := by
    rw [asking, find?_adjust_self found]
  have lists : ∀ targets, referencesOf encoder.window handle targets =
      referencesOf window handle targets := by
    rw [asking]
    exact referencesOf_adjust window handle withdraw
  obtain ⟨past, pastEq, pastNamed⟩ := referencesOf_ok stocked handle picture.past
    fun target member => live target (by simp [Picture.held, member])
  obtain ⟨future, futureEq, futureNamed⟩ := referencesOf_ok stocked handle picture.future
    fun target member => live target (by simp [Picture.held, member])
  obtain ⟨dpb, dpbEq, dpbNamed⟩ := referencesOf_ok stocked handle picture.dpb
    fun target member => live target (by simp [Picture.held, member])
  refine ⟨{ picture := picture.info, image, past, future, dpb }, ?_,
    ⟨found, rfl, held, pastEq, futureEq, dpbEq⟩, picture, found, rfl, fun image member => ?_⟩
  · exact (runs_get _).bind ((onWindow_runs (fetch_runs fetching)).bind
      ((runs_ofExcept_ok ((lists _).trans pastEq) _).bind
        ((runs_ofExcept_ok ((lists _).trans futureEq) _).bind
          ((runs_ofExcept_ok ((lists _).trans dpbEq) _).bind (runs_pure _ _)))))
  · rcases List.mem_cons.mp member with rfl | named
    · exact ⟨handle, List.mem_cons_self .., picture, found, held⟩
    · obtain ⟨reference, listed, rfl⟩ := List.mem_map.mp named
      simp only [List.mem_append] at listed
      have among : ∀ {targets : List Handle}, (∀ target ∈ targets, target ∈ picture.held) →
          (∃ target ∈ targets, ∃ named, window.find? target = some named ∧
            named.image = some reference.image) →
          ∃ target ∈ handle :: picture.held, ∃ named,
            window.find? target = some named ∧ named.image = some reference.image := by
        rintro targets subset ⟨target, isTarget, facts⟩
        exact ⟨target, List.mem_cons_of_mem _ (subset target isTarget), facts⟩
      rcases listed with (inPast | inFuture) | inDpb
      · exact among (fun target isTarget => by simp [Picture.held, isTarget])
          (pastNamed reference inPast)
      · exact among (fun target isTarget => by simp [Picture.held, isTarget])
          (futureNamed reference inFuture)
      · exact among (fun target isTarget => by simp [Picture.held, isTarget])
          (dpbNamed reference inDpb)

theorem displayOrder_ne {scheduler : Scheduler} {window : Window B.Image}
    {laid fresh : List Handle} (arranged : scheduler.Arranged window laid fresh)
    {first second : Handle} {earlier later : Picture B.Image}
    (foundFirst : window.find? first = some earlier)
    (foundSecond : window.find? second = some later) (different : first ≠ second) :
    earlier.displayOrder ≠ later.displayOrder := by
  have total : first = second ∨ window.Before first second ∨ window.Before second first :=
    List.Pairwise.forall_of_forall_of_flip
      (R := fun first second => first = second ∨ window.Before first second ∨
        window.Before second first)
      (fun _ _ => Or.inl rfl) (arranged.ordered.imp fun before => Or.inr (Or.inl before))
      (arranged.ordered.imp fun before => Or.inr (Or.inr before))
      (mem_handles_of_find? foundFirst) (mem_handles_of_find? foundSecond)
  rcases total.resolve_left different with ⟨left, right, foundLeft, foundRight, less⟩ |
      ⟨left, right, foundLeft, foundRight, less⟩
  · cases find?_unique foundFirst foundLeft
    cases find?_unique foundSecond foundRight
    exact Nat.ne_of_lt less
  · cases find?_unique foundSecond foundLeft
    cases find?_unique foundFirst foundRight
    exact Nat.ne_of_gt less

def issuedWindow (window : Window B.Image) (handle : Handle) (encodeOrder : Nat) :
    Window B.Image :=
  (window.adjust handle (number encodeOrder)).adjust handle Picture.issue

theorem issuedWindow_eq (window : Window B.Image) (handle : Handle) (encodeOrder : Nat) :
    issuedWindow window handle encodeOrder =
      window.adjust handle fun picture => (number encodeOrder picture).issue := adjust_adjust ..

theorem images_issuedWindow (window : Window B.Image) (handle : Handle) (encodeOrder : Nat) :
    (issuedWindow window handle encodeOrder).images = window.images := by
  rw [issuedWindow_eq, images_adjust handle]
  exact fun _ => rfl

theorem issuedWindow_putBack {window : Window B.Image} {picture : Picture B.Image}
    {image : B.Image} (found : window.find? handle = some picture)
    (held : picture.image = some image) (encodeOrder : Nat) :
    ((window.adjust handle (number encodeOrder)).adjust handle withdraw).adjust handle
        (putBack image) = issuedWindow window handle encodeOrder := by
  rw [adjust_adjust, adjust_adjust, issuedWindow_eq]
  refine adjust_congr found ?_
  simp only [putBack, withdraw, number, Picture.issue, held]

theorem issuedWindow_swap (window : Window B.Image) (handle : Handle) (encodeOrder : Nat) :
    (window.adjust handle Picture.issue).adjust handle (number encodeOrder) =
      issuedWindow window handle encodeOrder := by
  rw [adjust_adjust, issuedWindow_eq]
  rfl

theorem tidy_issuedWindow {window : Window B.Image} {recent : List Handle}
    (tidy : window.Tidy recent) (handle : Handle) (encodeOrder : Nat) :
    (issuedWindow window handle encodeOrder).Tidy recent := by
  rw [issuedWindow_eq]
  refine tidy.adjust (fun _ => rfl) (fun _ _ => rfl) fun same foundSame => ?_
  have consistent := tidy.consistent handle same foundSame
  exact ⟨fun _ => rfl, consistent.complete, consistent.direct⟩

theorem Ready.issue (ready : encoder.Ready ledger handle flight) (encodeOrder : Nat)
    {backend : B.State} (landed : List Handle) (later : List (Handle × B.Promise))
    (members : ∀ key, key ∈ landed ++ later.map Prod.fst ↔
      key = handle ∨ key ∈ flight.map Prod.fst)
    (distinct : (landed ++ later.map Prod.fst).Nodup)
    (records : ∃ records, ledger.Holds backend encoder.window.images
      records ∧ List.Forall₂ (Carries (encoder.window.adjust handle (number encodeOrder))) later
        records) :
    ({ encoder with
      backend
      window := issuedWindow encoder.window handle encodeOrder } : Encoder B).Core ledger landed
        later := by
  obtain ⟨tidy, ⟨picture, found, waiting⟩, laid, fresh, isLaid, arranged⟩ := ready.pickable
  have whole := issuedWindow_eq encoder.window handle encodeOrder
  have incomplete := (tidy.consistent handle picture found).incomplete waiting
  constructor
  case tidy => exact tidy_issuedWindow tidy handle encodeOrder
  case arranged =>
    refine ⟨laid, fresh, ?_⟩
    show encoder.scheduler.Arranged (issuedWindow encoder.window handle encodeOrder) laid fresh
    -- The order of the window is known once the picture is issued, numbered or not.
    rw [← issuedWindow_swap]
    have apart := (arranged.laid_of_issued (find?_adjust_self found Picture.issue) rfl).2
    exact arranged.adjust isLaid apart (fun _ => ⟨rfl, id⟩) fun _ => rfl
  case distinct => exact distinct
  case flying =>
    intro key
    show _ ↔ ∃ picture,
      (issuedWindow encoder.window handle encodeOrder).find? key = some picture ∧ _
    rw [members, ready.flying, whole]
    by_cases same : key = handle
    · subst same
      simp only [true_or, true_iff]
      exact ⟨_, find?_adjust_self found _, rfl, incomplete⟩
    · rw [find?_adjust_of_ne same]
      simp [same]
  case numbered =>
    intro key current foundKey issued
    replace foundKey : (issuedWindow encoder.window handle encodeOrder).find? key =
      some current := foundKey
    rw [whole, find?_adjust] at foundKey
    split at foundKey
    · obtain ⟨old, _, rfl⟩ := Option.map_eq_some_iff.mp foundKey
      rfl
    · exact ready.numbered key current foundKey issued
  case ended => exact ready.ended
  case stocked =>
    show (issuedWindow encoder.window handle encodeOrder).Stocked
    rw [whole]
    exact ready.stocked.adjust handle fun _ => rfl
  case records =>
    obtain ⟨records, holds, carries⟩ := records
    rw [← images_issuedWindow encoder.window handle encodeOrder] at holds
    exact ⟨records, holds, carries.imp fun _ _ carried => carried.adjust handle fun _ => rfl⟩

def unissuedIn (window : Window B.Image) : Nat :=
  window.pictures.countP fun picture => !picture.issued

theorem unissued_issuedWindow {window : Window B.Image} {picture : Picture B.Image}
    (found : window.find? handle = some picture) (waiting : picture.issued = false) (encodeOrder : Nat) :
    unissuedIn (issuedWindow window handle encodeOrder) + 1 = unissuedIn window := by
  obtain ⟨front, back, around⟩ := exists_around found
  have left : unissuedIn window =
      ((front ++ back).map Prod.snd).countP (fun picture => !picture.issued) + 1 :=
    (around.pictures_perm.countP_eq _).trans (List.countP_cons_of_pos (by simp [waiting]))
  have right : unissuedIn (issuedWindow window handle encodeOrder) =
      ((front ++ back).map Prod.snd).countP fun picture => !picture.issued := by
    have after := (around.adjust fun picture => (number encodeOrder picture).issue).pictures_perm
    rw [issuedWindow, adjust_adjust]
    exact (after.countP_eq _).trans (List.countP_cons_of_neg (by simp [Picture.issue]))
  omega

theorem unissued_advances {change : Picture B.Image → Picture B.Image} (advances : Advances change)
    (handle : Handle) (window : Window B.Image) :
    unissuedIn (window.adjust handle change) = unissuedIn window := by
  have counted : ∀ window : Window B.Image,
      unissuedIn window = (window.pictures.map Picture.issued).countP fun issued => !issued := by
    intro window
    rw [List.countP_map]
    rfl
  rw [counted, counted, pictures_map_adjust handle change Picture.issued advances.issued]

/-! Runs. -/

theorem retireComplete_runs (core : encoder.Core ledger [] flight) :
    ∃ gone window, Runs retireComplete encoder (.ok ()) (encoder.discard gone window) ∧
      Retirement.Cleared encoder.scheduler.past.recent gone encoder.window window ∧
      (encoder.discard gone window).Core ledger [] flight := by
  obtain ⟨laid, fresh, arranged⟩ := core.arranged
  obtain ⟨gone, window, clearing, cleared⟩ :=
    Retirement.clear_ok core.tidy (arranged.retirable core.tidy) false
  refine ⟨gone, window, ?_, cleared, ?_⟩
  · exact (onWindow_runs clearing).bind (freeAll_runs gone { encoder with window })
  · exact (core.cleared cleared).congr rfl rfl rfl rfl rfl core.ended

theorem Ready.displayOrder_ne (ready : encoder.Ready ledger handle flight)
    {picture : Picture B.Image} (found : encoder.window.find? handle = some picture)
    {entry : Handle × B.Promise} (inFlight : entry ∈ flight) {record : B.Promise × Request B.Image}
    (carried : Carries encoder.window entry record) :
    record.2.picture.displayOrder ≠ picture.displayOrder := by
  obtain ⟨_, ⟨same, foundSame, waiting⟩, laid, fresh, _, arranged⟩ := ready.pickable
  cases find?_unique found foundSame
  obtain ⟨other, foundOther, issued, _⟩ :=
    (ready.flying entry.1).mp (List.mem_map_of_mem inFlight)
  have different : entry.1 ≠ handle := by
    rintro same
    rw [same] at foundOther
    cases find?_unique found foundOther
    rw [waiting] at issued
    cases issued
  obtain ⟨same, foundSame, order, _⟩ := carried.names
  cases find?_unique foundOther foundSame
  rw [order]
  have ordersDiffer : other.displayOrder ≠ picture.issue.displayOrder :=
    Encoder.displayOrder_ne arranged (by rwa [find?_adjust_of_ne different])
      (find?_adjust_self found Picture.issue) different
  exact ordersDiffer

def promised (handle : Handle) : Except BackendError B.Promise → List (Handle × B.Promise)
  | .ok promise => [(handle, promise)]
  | .error _ => []

def askingWindow (window : Window B.Image) (handle : Handle) (encodeOrder : Nat) :
    Window B.Image :=
  (window.adjust handle (number encodeOrder)).adjust handle withdraw

theorem request_runs (ready : encoder.Ready ledger handle flight) (encodeOrder : Nat) :
    ∃ picture request, Asks (encoder.window.adjust handle (number encodeOrder)) handle picture
        request ∧
      Runs (Encoder.request handle request.image)
        { encoder with window := askingWindow encoder.window handle encodeOrder }
        (.ok (B.issue request encoder.backend).1)
        { encoder with
          window := askingWindow encoder.window handle encodeOrder
          backend := (B.issue request encoder.backend).2 } ∧
      ∃ records, ledger.Holds (B.issue request encoder.backend).2
          encoder.window.images records ∧
        List.Forall₂ (Carries (encoder.window.adjust handle (number encodeOrder)))
          (flight ++ promised handle (B.issue request encoder.backend).1) records := by
  obtain ⟨tidy, ⟨picture, found, waiting⟩, _⟩ := ready.pickable
  have incomplete := (tidy.consistent handle picture found).incomplete waiting
  have numbered := find?_adjust_self found (number encodeOrder)
  obtain ⟨image, held⟩ := ready.stocked handle picture found
  have live : ∀ target ∈ (number encodeOrder picture).held,
      target ∈ (encoder.window.adjust handle (number encodeOrder)).handles := by
    have heldEq : (number encodeOrder picture).held = picture.held := rfl
    rw [handles_adjust, heldEq]
    exact tidy.held_live_of_incomplete found incomplete
  obtain ⟨request, requesting, asks, names⟩ : ∃ request, Runs (requestFor handle image)
        ({ encoder with window := askingWindow encoder.window handle encodeOrder } : Encoder B)
        (.ok request)
        { encoder with window := askingWindow encoder.window handle encodeOrder } ∧
      Asks (encoder.window.adjust handle (number encodeOrder)) handle (number encodeOrder picture)
        request ∧ Names (encoder.window.adjust handle (number encodeOrder)) handle request :=
    requestFor_runs rfl numbered held (ready.stocked.adjust handle fun _ => rfl) live
  have same : request.image = image := Option.some.inj (asks.image.symm.trans held)
  rw [← same] at requesting
  obtain ⟨records, holds, carries⟩ := ready.records
  have carriesOld : List.Forall₂ (Carries (encoder.window.adjust handle (number encodeOrder)))
      flight records :=
    carries.imp fun _ _ carried => carried.adjust handle fun _ => rfl
  have named : ∀ image ∈ request.images, image ∈ encoder.window.images := by
    have kept : ∀ other : Picture B.Image, (number encodeOrder other).image = other.image :=
      fun _ => rfl
    rw [← images_adjust handle kept]
    exact names.image_mem
  have apart : ∀ record ∈ records,
      record.2.picture.displayOrder ≠ request.picture.displayOrder := by
    intro record member
    obtain ⟨entry, inFlight, carried⟩ := exists_of_mem_right carries record member
    obtain ⟨current, foundCurrent, order, _⟩ := names
    cases find?_unique numbered foundCurrent
    rw [order]
    exact ready.displayOrder_ne found inFlight carried
  have recorded := ledger.issue request holds named apart
  refine ⟨_, request, asks, requesting.bind (onBackend_runs _ _), ?_⟩
  generalize (B.issue request encoder.backend).1 = answer at recorded ⊢
  cases answer with
  | error cause =>
      rw [promised, List.append_nil]
      exact ⟨records, recorded, carriesOld⟩
  | ok promise =>
      exact ⟨records ++ [(promise, request)], recorded,
        List.rel_append carriesOld (List.Forall₂.cons ⟨rfl, names⟩ List.Forall₂.nil)⟩

def lose (picture : Picture B.Image) : Picture B.Image :=
  { picture with complete := true, failed := true }

theorem advances_lose : Advances (lose (B := B)) where
  layout _ := rfl
  issued _ := rfl
  complete _ _ := rfl
  holds _ := rfl
  released _ := rfl
  numbered _ := id

theorem abandon_runs (core : encoder.Core ledger [handle] flight) (cause : BackendError) :
    ∃ order gone window,
      Runs (abandon handle cause) encoder (.error (.issueFailure order cause))
        (encoder.discard gone window) ∧
      Retirement.Cleared encoder.scheduler.past.recent gone (encoder.window.adjust handle lose)
        window ∧ (encoder.discard gone window).Core ledger [] flight := by
  obtain ⟨picture, found, _⟩ := (core.flying handle).mp (by simp)
  obtain ⟨gone, window, retiring, cleared, coreAfter⟩ :=
    retireComplete_runs (core.finish advances_lose fun _ => rfl)
  refine ⟨picture.displayOrder, gone, window, ?_, cleared, coreAfter⟩
  exact (onWindow_runs (fetch_runs found)).bind ((runs_note rfl _).bind
    ((onWindow_runs (alter_runs found _)).bind (retiring.bind (runs_fail _ _))))

inductive Answers (before : Encoder B) (handle : Handle) (encodeOrder : Nat) :
    Except EncodeError B.Promise → Encoder B → Prop where
  | accepted {picture : Picture B.Image} {request : Request B.Image} {promise : B.Promise}
      (asks : Asks (before.window.adjust handle (number encodeOrder)) handle picture request)
      (answer : (B.issue request before.backend).1 = .ok promise) :
      Answers before handle encodeOrder (.ok promise)
        { before with
          window := issuedWindow before.window handle encodeOrder
          backend := (B.issue request before.backend).2 }
  | refused {picture : Picture B.Image} {request : Request B.Image} {cause : BackendError}
      {order : Nat} {gone : List (Picture B.Image)} {window : Window B.Image}
      (asks : Asks (before.window.adjust handle (number encodeOrder)) handle picture request)
      (answer : (B.issue request before.backend).1 = .error cause)
      (cleared : Retirement.Cleared before.scheduler.past.recent gone
        ((issuedWindow before.window handle encodeOrder).adjust handle lose) window) :
      Answers before handle encodeOrder (.error (.issueFailure order cause))
        (({ before with backend := (B.issue request before.backend).2 } : Encoder B).discard gone
          window)

inductive Issued (ledger : Ledger B) (handle : Handle) (flight : List (Handle × B.Promise))
    (after : Encoder B) : Except EncodeError B.Promise → Prop
  | accepted (promise : B.Promise) (core : after.Core ledger [] (flight ++ [(handle, promise)])) :
      Issued ledger handle flight after (.ok promise)
  | refused (order : Nat) (cause : BackendError) (core : after.Core ledger [] flight) :
      Issued ledger handle flight after (.error (.issueFailure order cause))

def conclude (handle : Handle) : Except BackendError B.Promise → Action (Encoder B) B.Promise
  | .error cause => abandon handle cause
  | .ok promise => return promise

theorem takeImage_runs {picture : Picture B.Image} {image : B.Image}
    (found : encoder.window.find? handle = some picture) (held : picture.image = some image) :
    Runs (takeImage handle) encoder (.ok image)
      { encoder with window := encoder.window.adjust handle withdraw } :=
  (onWindow_runs (fetch_runs found)).bind ((runs_require held _ _).bind
    ((onWindow_runs (alter_runs found _)).bind (runs_pure _ _)))

theorem issue_runs {picture : Picture B.Image} {image : B.Image} {encodeOrder : Nat}
    {backend : B.State}
    {answer : Except BackendError B.Promise} {result : Except EncodeError B.Promise}
    {after : Encoder B} (found : encoder.window.find? handle = some picture)
    (held : picture.image = some image)
    (requesting : Runs (request handle image)
      { encoder with window := askingWindow encoder.window handle encodeOrder } (.ok answer)
      { encoder with window := askingWindow encoder.window handle encodeOrder, backend })
    (concluding : Runs (conclude handle answer)
      { encoder with window := issuedWindow encoder.window handle encodeOrder, backend } result
      after) : Runs (issue handle encodeOrder) encoder result after := by
  have foundNumbered := find?_adjust_self found (number encodeOrder)
  have foundAsked : (askingWindow encoder.window handle encodeOrder).find? handle =
      some (withdraw (number encodeOrder picture)) := find?_adjust_self foundNumbered withdraw
  rw [← issuedWindow_putBack found held] at concluding
  have taking : Runs (takeImage handle)
      ({ encoder with window := encoder.window.adjust handle (number encodeOrder) } : Encoder B)
      (.ok image) { encoder with window := askingWindow encoder.window handle encodeOrder } :=
    takeImage_runs foundNumbered held
  refine (onWindow_runs (alter_runs found (number encodeOrder))).bind (taking.bind
    (requesting.attempt.bind ((onWindow_runs (alter_runs foundAsked (putBack image))).bind ?_)))
  cases answer <;> exact concluding

theorem issue_ok (ready : encoder.Ready ledger handle flight) (encodeOrder : Nat) :
    ∃ answer after, Runs (issue handle encodeOrder) encoder answer after ∧
      Answers encoder handle encodeOrder answer after ∧ Issued ledger handle flight after answer ∧
      unissuedIn after.window + 1 = unissuedIn encoder.window := by
  obtain ⟨tidy, ⟨picture, found, waiting⟩, _⟩ := ready.pickable
  obtain ⟨_, request, asks, requesting, records, holds, carries⟩ := request_runs ready encodeOrder
  have held : picture.image = some request.image := by
    cases find?_unique asks.found (find?_adjust_self found (number encodeOrder))
    exact asks.image
  have counted := unissued_issuedWindow found waiting encodeOrder
  have apart : handle ∉ flight.map Prod.fst := by
    intro member
    obtain ⟨same, foundSame, issued, _⟩ := (ready.flying handle).mp member
    cases find?_unique found foundSame
    rw [waiting] at issued
    cases issued
  cases answer : (B.issue request encoder.backend).1 with
  | error cause =>
      rw [answer] at requesting carries
      rw [promised, List.append_nil] at carries
      have core := ready.issue encodeOrder [handle] flight (by simp)
        (List.nodup_cons.mpr ⟨apart, ready.distinct⟩) ⟨records, holds, carries⟩
      obtain ⟨order, gone, window, abandoning, cleared, coreAfter⟩ := abandon_runs core cause
      refine ⟨_, _, issue_runs found held requesting abandoning, .refused asks answer cleared,
        .refused order cause coreAfter, ?_⟩
      have same : unissuedIn window = unissuedIn (issuedWindow encoder.window handle encodeOrder) :=
        (unissued_cleared cleared).trans (unissued_advances advances_lose handle _)
      exact (congrArg (· + 1) same).trans counted
  | ok promise =>
      rw [answer] at requesting carries
      have core := ready.issue encodeOrder [] (flight ++ [(handle, promise)])
        (by simp [or_comm]) ?_ ⟨records, holds, carries⟩
      · exact ⟨_, _, issue_runs found held requesting (runs_pure _ _), .accepted asks answer,
          .accepted promise core, counted⟩
      · rw [List.nil_append, List.map_append, List.nodup_append]
        refine ⟨ready.distinct, by simp, ?_⟩
        rintro key member _ isNew rfl
        rw [List.map_singleton, List.mem_singleton] at isNew
        have isHandle : key = handle := isNew
        rw [isHandle] at member
        exact apart member

end VideoSchedule.Encoder

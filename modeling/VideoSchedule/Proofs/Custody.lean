import VideoSchedule.Backend.Recorded
import VideoSchedule.Proofs.Guarantees

/-!
Custody of images. The calls that a backend gets are written down, latest first; they free what was
allocated and nothing else, and no image that a request in flight names.
-/

namespace VideoSchedule

namespace Recorded

variable {ι : Type}

def allocatedImages : List (BackendCall ι) → List ι :=
  List.filterMap fun
    | .alloc _ (.ok image) => some image
    | _ => none

def freedImages : List (BackendCall ι) → List ι :=
  List.filterMap fun
    | .free image => some image
    | _ => none

/-- The images that were allocated and are not freed. -/
def Live (calls : List (BackendCall ι)) (live : List ι) : Prop :=
  (allocatedImages calls).Perm (freedImages calls ++ live)

/-- The backend took a request and was not waited for since. -/
def InFlight (calls : List (BackendCall ι)) (request : Request ι) : Prop :=
  ∃ later earlier, calls = later ++ .issue request none :: earlier ∧
    ∀ failure, .sync request.picture failure ∉ later

/-- What holds after every call: nothing was freed that was not allocated, a request names what is not
freed, and so does every request in flight; no two of these are for one picture. -/
structure Careful (calls : List (BackendCall ι)) : Prop where
  live : ∃ live, Live calls live ∧
    ∀ request, InFlight calls request → ∀ image ∈ request.images, image ∈ live
  issue : ∀ request failure earlier, calls = .issue request failure :: earlier →
    (∃ live, Live earlier live ∧ ∀ image ∈ request.images, image ∈ live) ∧
      ∀ other, InFlight earlier other → other.picture.displayOrder ≠ request.picture.displayOrder

theorem InFlight.cons {call : BackendCall ι} {calls : List (BackendCall ι)} {request : Request ι}
    (flight : InFlight (call :: calls) request) :
    call = .issue request none ∨ InFlight calls request ∧
      ∀ failure, call ≠ .sync request.picture failure := by
  obtain ⟨later, earlier, split, unsynced⟩ := flight
  cases later with
  | nil =>
      cases split
      exact Or.inl rfl
  | cons first rest =>
      rw [List.cons_append, List.cons.injEq] at split
      obtain ⟨rfl, rfl⟩ := split
      refine Or.inr ⟨⟨rest, earlier, rfl, fun failure member => ?_⟩, fun failure same => ?_⟩
      · exact unsynced failure (List.mem_cons_of_mem _ member)
      · exact unsynced failure (same ▸ List.mem_cons_self ..)

theorem careful_nil : Careful ([] : List (BackendCall ι)) where
  live := by
    refine ⟨[], List.Perm.refl _, fun request flight => ?_⟩
    obtain ⟨later, earlier, split, _⟩ := flight
    simp at split
  issue _ _ _ split := by cases split

end Recorded

open Recorded

variable {B : Backend}

def Recorded.SameCalls (before after : Recorded B) : Prop := after.calls = before.calls

/-- What is known of a backend under record: its calls were careful all along, the images not freed
are the live ones, and what is in flight by the record is in flight. -/
structure Recorded.Keeps (state : Recorded B) (live : List B.Image)
    (flying : List ((PictureInfo × B.Promise) × Request B.Image)) : Prop where
  careful : ∀ earlier, earlier <:+ state.calls → Careful earlier
  standing : Live state.calls live
  flight : ∀ request, InFlight state.calls request → ∃ promise, (promise, request) ∈ flying
  pictures : ∀ record ∈ flying, record.1.1 = record.2.picture
  images : ∀ record ∈ flying, ∀ image ∈ record.2.images, image ∈ live

variable {state : Recorded B} {live : List B.Image}
  {flying : List ((PictureInfo × B.Promise) × Request B.Image)}

theorem Recorded.Keeps.record (keeps : Recorded.Keeps state live flying)
    {call : BackendCall B.Image} (inner : B.State) {liveAfter : List B.Image}
    {flyingAfter : List ((PictureInfo × B.Promise) × Request B.Image)}
    (standing : Live (call :: state.calls) liveAfter)
    (flight : ∀ request, InFlight (call :: state.calls) request →
      ∃ promise, (promise, request) ∈ flyingAfter)
    (pictures : ∀ record ∈ flyingAfter, record.1.1 = record.2.picture)
    (images : ∀ record ∈ flyingAfter, ∀ image ∈ record.2.images, image ∈ liveAfter)
    (issue : ∀ request failure, call = .issue request failure →
      (∀ image ∈ request.images, image ∈ live) ∧ ∀ record ∈ flying,
        record.2.picture.displayOrder ≠ request.picture.displayOrder) :
    Recorded.Keeps (state.record call inner) liveAfter flyingAfter where
  careful := by
    intro earlier suffix
    rcases List.suffix_cons_iff.mp suffix with rfl | before
    · constructor
      · refine ⟨liveAfter, standing, fun request inFlight => ?_⟩
        obtain ⟨promise, member⟩ := flight request inFlight
        exact images _ member
      · intro request failure earlier split
        obtain ⟨rfl, rfl⟩ := List.cons.inj split
        obtain ⟨named, apart⟩ := issue request failure rfl
        refine ⟨⟨live, keeps.standing, named⟩, fun other inFlight => ?_⟩
        obtain ⟨promise, member⟩ := keeps.flight other inFlight
        exact apart _ member
    · exact keeps.careful earlier before
  standing := standing
  flight := flight
  pictures := pictures
  images := images

theorem Recorded.Keeps.flight_cons (keeps : Recorded.Keeps state live flying)
    (call : BackendCall B.Image) (notIssue : ∀ request failure, call ≠ .issue request failure)
    (request : Request B.Image) (inFlight : InFlight (call :: state.calls) request) :
    ∃ promise, (promise, request) ∈ flying := by
  rcases inFlight.cons with same | ⟨before, _⟩
  · exact absurd same (notIssue request none)
  · exact keeps.flight request before

/-- What an encoder promises of its calls. -/
def Ledger.custody (B : Backend) : Ledger B.recorded where
  Holds := Recorded.Keeps
  perm keeps moved := {
    careful := keeps.careful
    standing := keeps.standing.trans (moved.append_left _)
    flight := keeps.flight
    pictures := keeps.pictures
    images := fun record member image named => moved.subset (keeps.images record member image named) }
  alloc := by
    intro state live flying frame keeps
    cases answered : B.alloc frame state.inner with
    | mk result inner =>
        have flight := keeps.flight_cons (.alloc frame result) (by simp)
        cases result with
        | ok image =>
            simp only [answered]
            refine keeps.record inner ?_ flight keeps.pictures ?_ (by simp)
            · exact (keeps.standing.cons image).trans List.perm_middle.symm
            · exact fun record member used named =>
                List.mem_cons_of_mem _ (keeps.images record member used named)
        | error cause =>
            simp only [answered]
            exact keeps.record inner keeps.standing flight keeps.pictures keeps.images (by simp)
  issue := by
    intro state live flying request keeps named apart
    have known : ∀ answer other failure, BackendCall.issue request answer = .issue other failure →
        (∀ image ∈ other.images, image ∈ live) ∧ ∀ record ∈ flying,
          record.2.picture.displayOrder ≠ other.picture.displayOrder := by
      intro answer other failure same
      cases same
      exact ⟨named, apart⟩
    cases answered : B.issue request state.inner with
    | mk result inner =>
        cases result with
        | ok promise =>
            simp only [answered, Except.map]
            refine keeps.record inner keeps.standing ?_ ?_ ?_ (known none)
            · intro other inFlight
              rcases inFlight.cons with same | ⟨before, _⟩
              · cases same
                exact ⟨(request.picture, promise), by simp⟩
              · obtain ⟨given, member⟩ := keeps.flight other before
                exact ⟨given, List.mem_append_left _ member⟩
            · intro record member
              rcases List.mem_append.mp member with before | new
              · exact keeps.pictures record before
              · rw [List.mem_singleton.mp new]
            · intro record member
              rcases List.mem_append.mp member with before | new
              · exact keeps.images record before
              · rw [List.mem_singleton.mp new]
                exact named
        | error cause =>
            simp only [answered, Except.map]
            refine keeps.record inner keeps.standing ?_ keeps.pictures keeps.images
              (known (some cause))
            intro other inFlight
            rcases inFlight.cons with same | ⟨before, _⟩
            · cases same
            · exact keeps.flight other before
  sync := by
    intro state live flying promise request keeps
    have pictureEq : promise.1 = request.picture := keeps.pictures _ (List.mem_cons_self ..)
    refine keeps.record _ keeps.standing ?_
      (fun record member => keeps.pictures record (List.mem_cons_of_mem _ member))
      (fun record member => keeps.images record (List.mem_cons_of_mem _ member)) (by simp)
    intro other inFlight
    rcases inFlight.cons with same | ⟨before, unsynced⟩
    · cases same
    · obtain ⟨given, member⟩ := keeps.flight other before
      refine ⟨given, (List.mem_cons.mp member).resolve_left ?_⟩
      rintro ⟨rfl, rfl⟩
      exact unsynced _ (by rw [pictureEq])
  output := by
    intro state live flying image coded keeps _
    exact keeps.record _ keeps.standing (keeps.flight_cons _ (by simp)) keeps.pictures keeps.images
      (by simp)
  free := by
    intro state live flying image keeps used
    refine keeps.record _ ?_ (keeps.flight_cons _ (by simp)) keeps.pictures used (by simp)
    exact keeps.standing.trans List.perm_middle

namespace Encoder

open Window

variable {start : Recorded B} {encoder : Encoder B.recorded}

theorem Reachable.custody (nothing : start.calls = [])
    (reachable : Reachable (B := B.recorded) start SameCalls encoder) :
    encoder.Sound (Ledger.custody B) := by
  refine reachable.sound ?_ fun same keeps => ?_
  · have empty : ∀ earlier, earlier <:+ start.calls → Careful earlier := by
      intro earlier suffix
      rw [nothing, List.suffix_nil] at suffix
      rw [suffix]
      exact careful_nil
    refine ⟨empty, ?_, fun request inFlight => ?_, by simp, by simp⟩
    · rw [nothing]
      exact List.Perm.refl _
    · obtain ⟨later, earlier, split, _⟩ := inFlight
      rw [nothing] at split
      simp at split
  · constructor
    case careful =>
      rw [same]
      exact keeps.careful
    case standing =>
      rw [same]
      exact keeps.standing
    case flight =>
      rw [same]
      exact keeps.flight
    case pictures => exact keeps.pictures
    case images => exact keeps.images

/-- When a session is dropped, just the images that were allocated have been freed, each as often as
it was allocated; and at no time before was any freed that was not allocated. -/
theorem Reachable.frees_once (nothing : start.calls = [])
    (reachable : Reachable (B := B.recorded) start SameCalls encoder) :
    (freedImages (release encoder).state.backend.calls).Perm
        (allocatedImages (release encoder).state.backend.calls) ∧
      ∀ earlier, earlier <:+ (release encoder).state.backend.calls → ∃ live, Live earlier live := by
  obtain ⟨window, backend, failures, runs, _, keeps⟩ := release_ok (reachable.custody nothing)
  rw [runs.state_eq]
  refine ⟨?_, fun earlier suffix => ?_⟩
  · have balanced := keeps.standing.symm
    rwa [List.append_nil] at balanced
  · obtain ⟨live, standing, _⟩ := (keeps.careful earlier suffix).live
    exact ⟨live, standing⟩

theorem frees_once_midstream :
    midstream.inFlight = 2 ∧ freedImages midstream.backend.calls = [2, 1] ∧
      freedImages (release midstream).state.backend.calls = [7, 6, 5, 4, 3, 0, 2, 1] ∧
      (freedImages (release midstream).state.backend.calls).Perm
        (allocatedImages (release midstream).state.backend.calls) ∧
      ∀ earlier, earlier <:+ (release midstream).state.backend.calls →
        ∃ live, Live earlier live :=
  ⟨by decide +kernel, by decide +kernel, by decide +kernel,
    Reachable.frees_once rfl (midstream_reachable _)⟩

/-- Everything that an incomplete picture names is in the window, and its image is not freed. -/
def Guarded {ι : Type} (window : Window ι) (calls : List (BackendCall ι)) : Prop :=
  ∃ live, Live calls live ∧ ∀ handle picture, window.find? handle = some picture →
    picture.complete = false → ∀ target ∈ picture.held, ∃ named,
      window.find? target = some named ∧ ∃ image ∈ live, named.image = some image

theorem guarded_of_tidy {ι : Type} {window : Window ι} {recent : List Handle}
    {calls : List (BackendCall ι)} (tidy : window.Tidy recent) (stocked : window.Stocked)
    (standing : Live calls window.images) : Guarded window calls := by
  refine ⟨_, standing, fun handle picture found incomplete target member => ?_⟩
  obtain ⟨named, foundNamed⟩ :=
    exists_of_mem_handles (tidy.held_live_of_incomplete found incomplete target member)
  obtain ⟨image, held⟩ := stocked target named foundNamed
  exact ⟨named, foundNamed, image, mem_images foundNamed held, held⟩

theorem Sound.guarded (sound : encoder.Sound (Ledger.custody B)) :
    Guarded encoder.window encoder.backend.calls := by
  rcases sound with running | ended
  · obtain ⟨records, keeps, _⟩ := running.core.records
    exact guarded_of_tidy running.core.tidy running.core.stocked keeps.standing
  · refine ⟨[], ended.records.standing, fun handle picture found => ?_⟩
    have live := mem_handles_of_find? found
    rw [ended.window] at live
    cases live

/-- No use after free. While a picture is laid out, waits or is in flight, all that it names is live;
requests name what is not freed, and nothing that they name is freed before they were waited for. -/
theorem Reachable.no_use_after_free (nothing : start.calls = [])
    (reachable : Reachable (B := B.recorded) start SameCalls encoder) :
    Guarded encoder.window encoder.backend.calls ∧
      (∀ session handle scheduler window, (takeNext encoder).state = session →
        session.window.isEmpty = false →
        (Scheduler.pickNext (session.scheduler, session.window)).result = .ok (.picture handle) →
        (Scheduler.pickNext (session.scheduler, session.window)).state = (scheduler, window) →
        Guarded window session.backend.calls) ∧
      ∀ earlier, earlier <:+ encoder.backend.calls ∨
        earlier <:+ (release encoder).state.backend.calls → Careful earlier := by
  have sound := reachable.custody nothing
  refine ⟨sound.guarded, ?_, ?_⟩
  · rintro session handle scheduler window rfl occupied picks states
    have running := sound.takeNext_running occupied
    obtain ⟨laid, fresh, arranged⟩ := running.core.arranged
    obtain ⟨pick, other, after, runs, picked⟩ := Scheduler.pickNext_ok arranged running.core.tidy
    have samePick := runs.result_eq.symm.trans picks
    have sameState := runs.state_eq.symm.trans states
    cases samePick
    cases sameState
    cases picked with
    | picture schedules pickable =>
        have ready := running.core.ready schedules pickable
        obtain ⟨records, keeps, _⟩ := ready.records
        exact guarded_of_tidy pickable.tidy ready.stocked keeps.standing
  · rintro earlier (before | after)
    · rcases sound with running | ended
      · obtain ⟨records, keeps, _⟩ := running.core.records
        exact keeps.careful earlier before
      · exact ended.records.careful earlier before
    · obtain ⟨window, backend, failures, runs, _, keeps⟩ := release_ok sound
      rw [runs.state_eq] at after
      exact keeps.careful earlier after

theorem no_use_after_free_midstream :
    midstream.inFlight = 2 ∧ freedImages midstream.backend.calls = [2, 1] ∧
      midstream.backend.requests.map (fun request => (request.picture.displayOrder, request.images)) =
        [(0, [0]), (3, [3, 0, 0]), (1, [1, 0, 3, 0, 3]), (2, [2, 0, 3, 0, 3]), (6, [6, 3, 3]),
          (4, [4, 3, 6, 3, 6])] ∧
      Guarded midstream.window midstream.backend.calls ∧
      Guarded
        (Scheduler.pickNext ((takeNext midstream).state.scheduler,
          (takeNext midstream).state.window)).state.2
        (takeNext midstream).state.backend.calls ∧
      ∀ earlier, earlier <:+ midstream.backend.calls ∨
        earlier <:+ (release midstream).state.backend.calls → Careful earlier := by
  obtain ⟨before, picked, careful⟩ := Reachable.no_use_after_free rfl (midstream_reachable _)
  exact ⟨by decide +kernel, by decide +kernel, by decide +kernel, before,
    picked _ ⟨5, 0⟩ _ _ rfl (by decide +kernel) (by decide +kernel) (Prod.eta _).symm, careful⟩

end Encoder

end VideoSchedule

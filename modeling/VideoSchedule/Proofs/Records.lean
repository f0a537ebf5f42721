import VideoSchedule.Backend.Recorded
import VideoSchedule.Proofs.Ending

/-!
What a record of calls says: the frames that images were made of, the requests, those that were
refused, and what became of every picture that the backend is done with.
-/

namespace VideoSchedule

/-- A picture that the backend is done with, and its bytes unless the backend failed on it. -/
abbrev Fate := PictureInfo × Option (List UInt8)

namespace Recorded

variable {B : Backend} {ι : Type}

def allocations (state : Recorded B) : List (Frame × Option B.Image) :=
  state.calls.reverse.filterMap fun
    | .alloc frame result => some (frame, result.toOption)
    | _ => none

def refusals (state : Recorded B) : List (Request B.Image) :=
  state.calls.reverse.filterMap fun
    | .issue request (some _) => some request
    | _ => none

def acceptances (state : Recorded B) : List (Request B.Image) :=
  state.calls.reverse.filterMap fun
    | .issue request none => some request
    | _ => none

/-- What became of the pictures, latest first. A picture ends with a request that is refused, with a
failure that shows when it is waited for, or with its bytes, asked for right after that. -/
def endings : List (BackendCall ι) → List Fate
  | .issue request (some _) :: rest => (request.picture, none) :: endings rest
  | .sync picture (some _) :: rest => (picture, none) :: endings rest
  | .output _ answer :: .sync picture none :: rest => (picture, answer.toOption) :: endings rest
  | _ :: rest => endings rest
  | [] => []

def fates (state : Recorded B) : List Fate := (endings state.calls).reverse

structure Adds (before after : Recorded B) (allocated : List (Frame × Option B.Image))
    (requested refused : List (Request B.Image)) (ended : List Fate) : Prop where
  allocations : after.allocations = before.allocations ++ allocated
  requests : after.requests = before.requests ++ requested
  refusals : after.refusals = before.refusals ++ refused
  fates : after.fates = before.fates ++ ended

section

variable {before middle after state : Recorded B}

theorem Adds.refl (state : Recorded B) : Adds state state [] [] [] [] := by
  constructor <;> rw [List.append_nil]

theorem Adds.trans {allocated nextAllocated : List (Frame × Option B.Image)}
    {requested refused nextRequested nextRefused : List (Request B.Image)}
    {ended nextEnded : List Fate} (first : Adds before middle allocated requested refused ended)
    (second : Adds middle after nextAllocated nextRequested nextRefused nextEnded) :
    Adds before after (allocated ++ nextAllocated) (requested ++ nextRequested)
      (refused ++ nextRefused) (ended ++ nextEnded) := by
  constructor
  · rw [second.allocations, first.allocations, List.append_assoc]
  · rw [second.requests, first.requests, List.append_assoc]
  · rw [second.refusals, first.refusals, List.append_assoc]
  · rw [second.fates, first.fates, List.append_assoc]

theorem Adds.silent {allocated : List (Frame × Option B.Image)}
    {requested refused : List (Request B.Image)} {ended : List Fate}
    (adds : Adds before middle allocated requested refused ended)
    (silent : Adds middle after [] [] [] []) :
    Adds before after allocated requested refused ended := by
  have both := adds.trans silent
  rwa [List.append_nil, List.append_nil, List.append_nil, List.append_nil] at both

theorem adds_of_calls (same : after.calls = before.calls) : Adds before after [] [] [] [] := by
  constructor <;> rw [List.append_nil]
  · rw [allocations, allocations, same]
  · rw [requests, requests, same]
  · rw [refusals, refusals, same]
  · rw [fates, fates, same]

theorem filterMap_record {β : Type} (view : BackendCall B.Image → Option β)
    (call : BackendCall B.Image) (inner : B.State) (state : Recorded B) :
    (state.record call inner).calls.reverse.filterMap view =
      state.calls.reverse.filterMap view ++ (view call).toList := by
  rw [record, List.reverse_cons, List.filterMap_append, List.filterMap_cons]
  cases view call <;> rfl

theorem alloc_adds (frame : Frame) :
    Adds state (B.recorded.alloc frame state).2
      [(frame, (B.recorded.alloc frame state).1.toOption)] [] [] [] :=
  ⟨filterMap_record .., filterMap_record .., filterMap_record .., (List.append_nil _).symm⟩

theorem allocated_adds {frame : Frame} {image : B.Image}
    (answer : (B.recorded.alloc frame state).1 = .ok image) :
    Adds state (B.recorded.alloc frame state).2 [(frame, some image)] [] [] [] := by
  have adds : Adds state (B.recorded.alloc frame state).2 _ _ _ _ := alloc_adds frame
  rwa [answer] at adds

theorem issue_adds {request : Request B.Image} {promise : PictureInfo × B.Promise}
    (answer : (B.recorded.issue request state).1 = .ok promise) :
    Adds state (B.recorded.issue request state).2 [] [request] [] [] ∧
      promise.1 = request.picture := by
  cases answered : B.issue request state.inner with
  | mk result inner =>
      cases result with
      | error cause => simp [answered, Except.map] at answer
      | ok given =>
          simp only [answered, Except.map, Except.ok.injEq] at answer
          subst answer
          simp only [answered]
          exact ⟨⟨filterMap_record .., filterMap_record .., filterMap_record ..,
            (List.append_nil _).symm⟩, trivial⟩

theorem refusal_adds {request : Request B.Image} {cause : BackendError}
    (answer : (B.recorded.issue request state).1 = .error cause) :
    Adds state (B.recorded.issue request state).2 [] [request] [request]
      [(request.picture, none)] := by
  cases answered : B.issue request state.inner with
  | mk result inner =>
      cases result with
      | ok given => simp [answered, Except.map] at answer
      | error cause =>
          simp only [answered]
          exact ⟨filterMap_record .., filterMap_record .., filterMap_record .., List.reverse_cons⟩

theorem free_adds (image : B.Image) : Adds state (B.recorded.free image state) [] [] [] [] :=
  ⟨filterMap_record .., filterMap_record .., filterMap_record .., (List.append_nil _).symm⟩

theorem giveBack_adds (picture : Picture B.Image) :
    Adds state (Encoder.giveBack (B := B.recorded) picture state) [] [] [] [] := by
  rw [Encoder.giveBack]
  split
  next image _ => exact free_adds (B := B) image
  next => exact .refl state

theorem freed_adds (gone : List (Picture B.Image)) :
    Adds state (Encoder.freed (B := B.recorded) state gone) [] [] [] [] := by
  induction gone generalizing state with
  | nil => exact .refl state
  | cons picture rest ih => exact (giveBack_adds picture).silent ih

theorem refused_adds {request : Request B.Image} {cause : BackendError}
    (gone : List (Picture B.Image))
    (answer : (B.recorded.issue request state).1 = .error cause) :
    Adds state (Encoder.freed (B := B.recorded) (B.recorded.issue request state).2 gone) []
      [request] [request] [(request.picture, none)] :=
  (refusal_adds answer).silent (freed_adds gone)

theorem collect_adds (promise : PictureInfo × B.Promise) (image : B.Image) :
    Adds state
      (Encoder.collected (B := B.recorded) image (B.recorded.sync promise state).1
        (B.recorded.sync promise state).2).2 [] [] []
      [(promise.1, (Encoder.collected (B := B.recorded) image (B.recorded.sync promise state).1
        (B.recorded.sync promise state).2).1.toOption)] := by
  cases answered : B.sync promise.2 state.inner with
  | mk result inner =>
      cases result with
      | error cause =>
          simp only [answered, Encoder.collected]
          exact ⟨filterMap_record .., filterMap_record .., filterMap_record .., List.reverse_cons⟩
      | ok coded =>
          have twice : ∀ {β : Type} (view : BackendCall B.Image → Option β)
              (first second : BackendCall B.Image) (inner last : B.State), view first = none →
              view second = none →
              ((state.record first inner).record second last).calls.reverse.filterMap view =
                state.calls.reverse.filterMap view ++ [] := by
            intro β view first second inner last firstNone secondNone
            rw [filterMap_record, filterMap_record, firstNone, secondNone, Option.toList_none,
              List.append_nil]
          simp only [answered, Encoder.collected]
          exact ⟨twice _ _ _ _ _ rfl rfl, twice _ _ _ _ _ rfl rfl, twice _ _ _ _ _ rfl rfl,
            List.reverse_cons⟩

theorem collected_adds {promise : PictureInfo × B.Promise} {image : B.Image}
    {bytes : Option (List UInt8)} (gone : List (Picture B.Image))
    (answer : (Encoder.collected (B := B.recorded) image (B.recorded.sync promise state).1
      (B.recorded.sync promise state).2).1.toOption = bytes) :
    Adds state (Encoder.freed (B := B.recorded) (Encoder.collected (B := B.recorded) image
      (B.recorded.sync promise state).1 (B.recorded.sync promise state).2).2 gone) [] [] []
      [(promise.1, bytes)] := by
  rw [← answer]
  exact (collect_adds promise image).silent (freed_adds gone)

theorem filterMap_of_winds {β : Type} {view : BackendCall B.Image → Option β}
    (sync : ∀ picture failure, view (.sync picture failure) = none)
    (free : ∀ image, view (.free image) = none) {start last : B.recorded.State}
    (winds : Encoder.Winds start last) :
    last.calls.reverse.filterMap view = start.calls.reverse.filterMap view := by
  induction winds with
  | refl => rfl
  | sync _ promise ih =>
      refine Eq.trans ((filterMap_record ..).trans ?_) ih
      rw [sync]
      exact List.append_nil _
  | free _ image ih =>
      refine Eq.trans ((filterMap_record ..).trans ?_) ih
      rw [free]
      exact List.append_nil _

theorem requests_of_winds {start last : B.recorded.State} (winds : Encoder.Winds start last) :
    last.requests = start.requests :=
  filterMap_of_winds (fun _ _ => rfl) (fun _ => rfl) winds

theorem acceptances_of_winds {start last : B.recorded.State} (winds : Encoder.Winds start last) :
    last.acceptances = start.acceptances :=
  filterMap_of_winds (fun _ _ => rfl) (fun _ => rfl) winds

/-! Only a request that the backend takes adds to those that it took. -/

theorem acceptances_of_calls (same : after.calls = before.calls) :
    after.acceptances = before.acceptances := by
  rw [acceptances, acceptances, same]

theorem acceptances_alloc (frame : Frame) (state : B.recorded.State) :
    (B.recorded.alloc frame state).2.acceptances = state.acceptances :=
  (filterMap_record ..).trans (List.append_nil _)

theorem acceptances_accepted {request : Request B.Image} {promise : PictureInfo × B.Promise}
    (answer : (B.recorded.issue request state).1 = .ok promise) :
    Recorded.acceptances (B.recorded.issue request state).2 = state.acceptances ++ [request] := by
  cases answered : B.issue request state.inner with
  | mk result inner =>
      cases result with
      | error cause => simp [answered, Except.map] at answer
      | ok given =>
          simp only [answered]
          exact filterMap_record ..

theorem acceptances_refused {request : Request B.Image} {cause : BackendError}
    (answer : (B.recorded.issue request state).1 = .error cause) :
    Recorded.acceptances (B.recorded.issue request state).2 = state.acceptances := by
  cases answered : B.issue request state.inner with
  | mk result inner =>
      cases result with
      | ok given => simp [answered, Except.map] at answer
      | error cause =>
          simp only [answered]
          exact (filterMap_record ..).trans (List.append_nil _)

theorem acceptances_freed (gone : List (Picture B.Image)) (state : B.recorded.State) :
    Recorded.acceptances (Encoder.freed (B := B.recorded) state gone) = state.acceptances :=
  acceptances_of_winds (Encoder.Winds.refl.freed (B := B.recorded) gone)

theorem acceptances_collected (promise : PictureInfo × B.Promise) (image : B.Image)
    (state : B.recorded.State) :
    Recorded.acceptances (Encoder.collected (B := B.recorded) image (B.recorded.sync promise state).1
      (B.recorded.sync promise state).2).2 = state.acceptances := by
  have synced : Recorded.acceptances (B.recorded.sync promise state).2 = state.acceptances :=
    (filterMap_record ..).trans (List.append_nil _)
  cases answer : (B.recorded.sync promise state).1 with
  | error cause => exact synced
  | ok coded =>
      refine Eq.trans ?_ synced
      exact (filterMap_record ..).trans (List.append_nil _)

end

end Recorded

end VideoSchedule

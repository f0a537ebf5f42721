import VideoSchedule.Proofs.Lookahead

/-!
How draining and asking for packets come to an end. Both are loops of steps; here they have no limit,
and their steps are counted. What a session has requested from its backend and what it has still to
request stay the same together, so a drain that no fatal error ends has everything requested.
-/

namespace VideoSchedule.Encoder

open VideoSchedule.Action Window Recorded

section

variable {B : Backend} {ledger : Ledger B} {encoder before after : Encoder B} {mode : BlockingMode}
  {goesOn : Except EncodeError Step → Encoder B → Bool}
  {keep : Except EncodeError Step → Encoder B → Encoder B}
  {outcomes earlier later : List (Except EncodeError Step)}

/-- Steps for as long as a loop goes on, what each of them came to, and the state that they leave. -/
inductive Loop (mode : BlockingMode) (goesOn : Except EncodeError Step → Encoder B → Bool)
    (keep : Except EncodeError Step → Encoder B → Encoder B) :
    Encoder B → List (Except EncodeError Step) → Encoder B → Prop where
  | last {before after : Encoder B} {outcome : Except EncodeError Step}
      (result : (step mode before).result = outcome) (state : (step mode before).state = after)
      (stops : goesOn outcome after = false) :
      Loop mode goesOn keep before [outcome] (keep outcome after)
  | again {before middle after : Encoder B} {outcome : Except EncodeError Step}
      {outcomes : List (Except EncodeError Step)}
      (result : (step mode before).result = outcome) (state : (step mode before).state = middle)
      (more : goesOn outcome middle = true)
      (loop : Loop mode goesOn keep (keep outcome middle) outcomes after) :
      Loop mode goesOn keep before (outcome :: outcomes) after

/-! Asking for packets. -/

def searchesOn : Except EncodeError Step → Encoder B → Bool
  | .ok .needInput, after => after.canProgress
  | .ok .empty, after => after.canProgress || after.scheduler.endOfStream
  | _, _ => false

def answered : Except EncodeError Step → Except EncodeError Received
  | .error cause => .error cause
  | .ok (.packet picture) => .ok (.packet picture)
  | .ok .endOfStream => .ok .endOfStream
  | .ok _ => .ok .wouldBlock

theorem Concluded.less {result : Except EncodeError Step}
    (concluded : Concluded mode before result after) (more : searchesOn result after = true) :
    after.work < before.work := by
  cases concluded with
  | fatal => cases more
  | moved moved =>
      cases moved with
      | gained _ less => exact less
      | needInput _ less => exact less more
      | busy => cases more
      | endOfStream => cases more

/-- A call for a packet: it hands out what is queued, or else takes steps. -/
inductive Searches (mode : BlockingMode) (before : Encoder B) :
    List (Except EncodeError Step) → Except EncodeError Received → Encoder B → Prop where
  | queued {picture : CodedPicture} {rest : List CodedPicture}
      (coded : before.coded = picture :: rest) :
      Searches mode before [] (.ok (.packet picture)) { before with coded := rest }
  | steps {earlier : List (Except EncodeError Step)} {outcome : Except EncodeError Step}
      {after : Encoder B} (coded : before.coded = [])
      (loop : Loop mode searchesOn (fun _ => id) before (earlier ++ [outcome]) after) :
      Searches mode before (earlier ++ [outcome]) (answered outcome) after

theorem stepsWithin_loop (mode : BlockingMode) (limit : Nat) (sound : encoder.Sound ledger)
    (enough : encoder.work < limit) :
    ∃ earlier outcome after, Loop mode searchesOn (fun _ => id) encoder (earlier ++ [outcome]) after ∧
      earlier.length < limit ∧
      Runs (stepsWithin mode limit) encoder ((answered outcome).map some) after := by
  induction limit generalizing encoder with
  | zero => omega
  | succ limit ih =>
      obtain ⟨result, after, stepping, soundAfter, _, concluded, _⟩ := step_ok sound mode
      have resultEq := stepping.result_eq
      have stateEq := stepping.state_eq
      have stops : searchesOn result after = false →
          Runs (stepsWithin mode (limit + 1)) encoder ((answered result).map some) after →
          ∃ earlier outcome last,
            Loop mode searchesOn (fun _ => id) encoder (earlier ++ [outcome]) last ∧
            earlier.length < limit + 1 ∧
            Runs (stepsWithin mode (limit + 1)) encoder ((answered outcome).map some) last := by
        intro halts runs
        exact ⟨[], result, after, .last resultEq stateEq halts, Nat.succ_pos _, runs⟩
      have goesOn : searchesOn result after = true → after.work < encoder.work →
          (∀ {last : Encoder B} {ending : Except EncodeError (Option Received)},
            Runs (stepsWithin mode limit) after ending last →
              Runs (stepsWithin mode (limit + 1)) encoder ending last) →
          ∃ earlier outcome last,
            Loop mode searchesOn (fun _ => id) encoder (earlier ++ [outcome]) last ∧
            earlier.length < limit + 1 ∧
            Runs (stepsWithin mode (limit + 1)) encoder ((answered outcome).map some) last := by
        intro more less again
        obtain ⟨earlier, outcome, last, loop, short, runs⟩ := ih soundAfter (by omega)
        exact ⟨result :: earlier, outcome, last, .again resultEq stateEq more loop,
          Nat.succ_lt_succ short, again runs⟩
      cases result with
      | error cause => exact stops rfl (Runs.bind_error stepping)
      | ok step =>
          cases step with
          | packet picture => exact stops rfl (stepping.bind (runs_pure _ _))
          | endOfStream => exact stops rfl (stepping.bind (runs_pure _ _))
          | busy => exact stops rfl (stepping.bind (runs_pure _ _))
          | needInput =>
              by_cases progress : after.canProgress = true
              · refine goesOn progress (concluded.less progress) fun runs => ?_
                refine stepping.bind ((runs_get _).bind ?_)
                rwa [if_pos progress]
              · refine stops (by simpa [searchesOn] using progress) ?_
                refine stepping.bind ((runs_get _).bind ?_)
                rw [if_neg progress]
                exact runs_pure _ _
          | empty =>
              by_cases further : (after.canProgress || after.scheduler.endOfStream) = true
              · refine goesOn further (concluded.less further) fun runs => ?_
                refine stepping.bind ((runs_get _).bind ?_)
                rwa [if_pos further]
              · refine stops (by simpa [searchesOn] using further) ?_
                refine stepping.bind ((runs_get _).bind ?_)
                rw [if_neg further]
                exact runs_pure _ _

theorem nextPacket_searches (sound : encoder.Sound ledger) (mode : BlockingMode) :
    ∃ outcomes result after, Searches mode encoder outcomes result after ∧
      outcomes.length ≤ encoder.stepLimit ∧ Runs (nextPacket mode) encoder result after := by
  cases codedEq : encoder.coded with
  | cons picture rest =>
      refine ⟨[], _, _, .queued codedEq, Nat.zero_le _, (runs_get _).bind ?_⟩
      rw [codedEq]
      exact (runs_modify _ _).bind (runs_pure _ _)
  | nil =>
      obtain ⟨earlier, outcome, after, loop, short, runs⟩ :=
        stepsWithin_loop mode encoder.stepLimit sound encoder.work_lt_stepLimit
      refine ⟨_, _, _, .steps codedEq loop, ?_, (runs_get _).bind ?_⟩
      · rw [List.length_append]
        exact short
      · rw [codedEq]
        cases answer : answered outcome with
        | error cause =>
            rw [answer] at runs
            exact Runs.bind_error runs
        | ok received =>
            rw [answer] at runs
            exact runs.bind (runs_require rfl _ _)

/-! Draining. -/

def drainsOn : Except EncodeError Step → Encoder B → Bool
  | .error cause, _ => !cause.isFatal
  | .ok .endOfStream, _ => false
  | .ok .needInput, after => after.canProgress
  | .ok _, _ => true

def queueing : Except EncodeError Step → Encoder B → Encoder B
  | .ok (.packet picture), after => { after with coded := after.coded ++ [picture] }
  | _, after => after

theorem queueing_eq (outcome : Except EncodeError Step) (encoder : Encoder B) :
    ∃ coded, queueing outcome encoder = { encoder with coded } := by
  unfold queueing
  split
  · exact ⟨_, rfl⟩
  · exact ⟨encoder.coded, rfl⟩

def noted (first : Option EncodeError) :
    List (Except EncodeError Step) → Except EncodeError (Option EncodeError)
  | [] => .ok first
  | .ok _ :: rest => noted first rest
  | .error cause :: rest =>
      if cause.isFatal then .error cause else noted (first.or (some cause)) rest

theorem drainWithin_loop (limit : Nat) (first : Option EncodeError) (sound : encoder.Sound ledger)
    (draining : encoder.draining = true) (enough : encoder.work < limit) :
    ∃ outcomes after, Loop .blocking drainsOn queueing encoder outcomes after ∧
      outcomes.length ≤ limit ∧
      Runs (drainWithin first limit) encoder ((noted first outcomes).map some) after := by
  induction limit generalizing encoder first with
  | zero => omega
  | succ limit ih =>
      obtain ⟨result, after, stepping, soundAfter, keeps, concluded, _⟩ := step_ok sound .blocking
      have resultEq := stepping.result_eq
      have stateEq := stepping.state_eq
      have drainingAfter := keeps.draining.trans draining
      have goesOn : drainsOn result after = true → after.work < encoder.work →
          ∀ next, (∀ outcomes, noted first (result :: outcomes) = noted next outcomes) →
          (∀ {last : Encoder B} {ending : Except EncodeError (Option (Option EncodeError))},
            Runs (drainWithin next limit) (queueing result after) ending last →
              Runs (drainWithin first (limit + 1)) encoder ending last) →
          ∃ outcomes last, Loop .blocking drainsOn queueing encoder outcomes last ∧
            outcomes.length ≤ limit + 1 ∧
            Runs (drainWithin first (limit + 1)) encoder ((noted first outcomes).map some) last := by
        intro more less next notes again
        obtain ⟨coded, queued⟩ := queueing_eq result after
        have fewer : ({ after with coded } : Encoder B).work < limit :=
          Nat.lt_of_lt_of_le less (Nat.le_of_lt_succ enough)
        obtain ⟨outcomes, last, loop, short, runs⟩ :=
          ih next (soundAfter.withCoded coded) drainingAfter fewer
        rw [← queued] at loop runs
        refine ⟨result :: outcomes, last, .again resultEq stateEq more loop, ?_, ?_⟩
        · rw [List.length_cons]
          omega
        · rw [notes]
          exact again runs
      cases concluded with
      | @fatal cause _ _ fatal =>
          have stops : drainsOn (.error cause) after = false := by simp [drainsOn, fatal]
          refine ⟨[.error cause], after, .last resultEq stateEq stops, Nat.succ_pos _, ?_⟩
          have ends : noted first [.error cause] = .error cause := by simp [noted, fatal]
          rw [ends]
          refine stepping.attempt.bind ?_
          dsimp only
          rw [if_pos fatal]
          exact runs_fail _ _
      | moved moved survives =>
          cases moved with
          | busy impatient => cases impatient
          | endOfStream =>
              exact ⟨[.ok .endOfStream], after, .last resultEq stateEq rfl, Nat.succ_pos _,
                stepping.attempt.bind (runs_pure _ _)⟩
          | needInput open_ less =>
              have progress : after.canProgress = true := by
                simp [canProgress, drainingAfter, open_]
              refine goesOn progress (less progress) first (fun _ => rfl) fun runs => ?_
              refine stepping.attempt.bind ((runs_get _).bind ?_)
              rwa [if_pos progress]
          | gained gains less =>
              cases gains with
              | @failed cause _ =>
                  have mild : cause.isFatal = false := survives cause rfl
                  have notes : ∀ outcomes, noted first (.error cause :: outcomes) =
                      noted (first.or (some cause)) outcomes := by
                    intro outcomes
                    simp [noted, mild]
                  refine goesOn (by simp [drainsOn, mild]) less _ notes fun runs => ?_
                  refine stepping.attempt.bind ?_
                  dsimp only
                  rwa [if_neg (by simp [mild])]
              | packet picture =>
                  exact goesOn rfl less first (fun _ => rfl) fun runs =>
                    stepping.attempt.bind ((runs_modify _ _).bind runs)
              | empty =>
                  exact goesOn rfl less first (fun _ => rfl) fun runs => stepping.attempt.bind runs

/-- What draining says of its steps: nothing if none of them failed, the first failure if it could go
on after each, and an error that is fatal at once. -/
structure Reports (outcomes : List (Except EncodeError Step)) (result : Except EncodeError Unit) :
    Prop where
  fine : (∀ outcome ∈ outcomes, ∃ step, outcome = .ok step) → result = .ok ()
  mild : ∀ earlier cause later, outcomes = earlier ++ .error cause :: later →
    (∀ outcome ∈ earlier, ∃ step, outcome = .ok step) →
    (∀ other, .error other ∈ outcomes → other.isFatal = false) → result = .error cause
  fatal : ∀ earlier cause later, outcomes = earlier ++ .error cause :: later →
    cause.isFatal = true → later = [] ∧ result = .error cause

theorem noted_fine (first : Option EncodeError)
    (fine : ∀ outcome ∈ earlier, ∃ step, outcome = .ok step) :
    noted first (earlier ++ later) = noted first later := by
  induction earlier with
  | nil => rfl
  | cons outcome rest ih =>
      obtain ⟨step, rfl⟩ := fine outcome (List.mem_cons_self ..)
      exact ih fun other member => fine other (List.mem_cons_of_mem _ member)

theorem noted_some (first : EncodeError)
    (mild : ∀ other, .error other ∈ outcomes → other.isFatal = false) :
    noted (some first) outcomes = .ok (some first) := by
  induction outcomes with
  | nil => rfl
  | cons outcome rest ih =>
      have left := ih fun other member => mild other (List.mem_cons_of_mem _ member)
      cases outcome with
      | ok step => exact left
      | error cause =>
          have passes := mild cause (List.mem_cons_self ..)
          simpa [noted, passes] using left

theorem noted_fatal (first : Option EncodeError) {cause : EncodeError} (fatal : cause.isFatal = true)
    (mild : ∀ other, .error other ∈ earlier → other.isFatal = false) :
    noted first (earlier ++ [.error cause]) = .error cause := by
  induction earlier generalizing first with
  | nil => simp [noted, fatal]
  | cons outcome rest ih =>
      have left := fun next => ih next fun other member => mild other (List.mem_cons_of_mem _ member)
      cases outcome with
      | ok step => exact left first
      | error other =>
          have passes := mild other (List.mem_cons_self ..)
          simpa [noted, passes] using left _

theorem Loop.fatal_last (loop : Loop .blocking drainsOn queueing before outcomes after)
    {cause : EncodeError} (split : outcomes = earlier ++ .error cause :: later)
    (fatal : cause.isFatal = true) : later = [] := by
  induction loop generalizing earlier with
  | last =>
      cases earlier with
      | nil =>
          simp only [List.nil_append, List.cons.injEq] at split
          exact split.2.symm
      | cons outcome rest => simp at split
  | again _ _ more loop ih =>
      cases earlier with
      | nil =>
          simp only [List.nil_append, List.cons.injEq] at split
          rw [split.1] at more
          simp [drainsOn, fatal] at more
      | cons outcome rest =>
          simp only [List.cons_append, List.cons.injEq] at split
          exact ih split.2

def reported : Except EncodeError (Option EncodeError) → Except EncodeError Unit
  | .error cause => .error cause
  | .ok none => .ok ()
  | .ok (some cause) => .error cause

theorem Loop.reports (loop : Loop .blocking drainsOn queueing before outcomes after) :
    Reports outcomes (reported (noted none outcomes)) := by
  constructor
  · intro fine
    have none : noted none (outcomes ++ []) = noted none [] := noted_fine none fine
    rw [List.append_nil] at none
    rw [none]
    rfl
  · rintro earlier cause later rfl fine mild
    have passes : cause.isFatal = false := mild cause (by simp)
    have left : noted (some cause) later = .ok (some cause) :=
      noted_some cause fun other member => mild other (by simp [member])
    rw [noted_fine none fine]
    simp [noted, passes, left, reported]
  · intro earlier cause later split fatal
    have none := loop.fatal_last split fatal
    subst none
    refine ⟨rfl, ?_⟩
    rw [split, noted_fatal none fatal]
    · rfl
    · intro other member
      by_contra isFatal
      rw [Bool.not_eq_false] at isFatal
      obtain ⟨front, back, earlierEq⟩ := List.append_of_mem member
      rw [earlierEq, List.append_assoc] at split
      have nothing := loop.fatal_last split isFatal
      simp at nothing

theorem drain_loop (sound : encoder.Sound ledger) :
    ∃ outcomes result after,
      Loop .blocking drainsOn queueing { encoder with draining := true } outcomes after ∧
      outcomes.length ≤ encoder.stepLimit ∧ Reports outcomes result ∧
      Runs drain encoder result after := by
  have enough : ({ encoder with draining := true } : Encoder B).work <
    ({ encoder with draining := true } : Encoder B).stepLimit := work_lt_stepLimit _
  obtain ⟨outcomes, after, loop, short, runs⟩ := drainWithin_loop _ none sound.drains rfl enough
  refine ⟨outcomes, _, after, loop, short, loop.reports, (runs_modify _ _).bind ((runs_get _).bind ?_)⟩
  cases notedEq : noted none outcomes with
  | error cause =>
      rw [notedEq] at runs
      exact Runs.bind_error runs
  | ok first =>
      rw [notedEq] at runs
      cases first with
      | none => exact runs.bind (runs_pure _ _)
      | some cause => exact runs.bind (runs_fail _ _)

end

/-! What is left to request. -/

section

variable {ι : Type} {before after window : Window ι} {handle : Handle} {picture : Picture ι}

def unissuedOrders (window : Window ι) : List Nat :=
  (window.pictures.filter fun picture => !picture.issued).map Picture.displayOrder

theorem unissuedOrders_eq_of_map_eq
    (same : after.pictures.map (fun picture => (picture.issued, picture.displayOrder)) =
      before.pictures.map fun picture => (picture.issued, picture.displayOrder)) :
    unissuedOrders after = unissuedOrders before := by
  have listed : ∀ window : Window ι, unissuedOrders window =
      ((window.pictures.map fun picture => (picture.issued, picture.displayOrder)).filter
        fun entry => !entry.1).map Prod.snd := by
    intro window
    rw [List.filter_map, List.map_map]
    rfl
  rw [listed, listed, same]

theorem unissuedOrders_adjust (handle : Handle) {change : Picture ι → Picture ι}
    (same : ∀ picture, ((change picture).issued, (change picture).displayOrder) =
      (picture.issued, picture.displayOrder)) :
    unissuedOrders (window.adjust handle change) = unissuedOrders window :=
  unissuedOrders_eq_of_map_eq (pictures_map_adjust handle change _ same window)

theorem unissuedOrders_issue
    (found : window.find? handle = some picture) (waiting : picture.issued = false)
    {change : Picture ι → Picture ι} (issues : (change picture).issued = true) :
    (picture.displayOrder :: unissuedOrders (window.adjust handle change)).Perm
      (unissuedOrders window) := by
  obtain ⟨front, back, around⟩ := exists_around found
  have earlier := (around.pictures_perm.filter fun picture => !picture.issued).map
    Picture.displayOrder
  have later := ((around.adjust change).pictures_perm.filter fun picture => !picture.issued).map
    Picture.displayOrder
  rw [List.filter_cons_of_pos (by simp [waiting]), List.map_cons] at earlier
  rw [List.filter_cons_of_neg (by simp [issues])] at later
  exact (later.cons picture.displayOrder).trans earlier.symm

theorem unissuedOrders_enter (waiting : picture.issued = false) :
    unissuedOrders (window.enter picture).2 = unissuedOrders window ++ [picture.displayOrder] := by
  rw [unissuedOrders, pictures_enter, List.filter_append, List.map_append, unissuedOrders]
  simp [waiting]

theorem unissuedOrders_cleared {recent : List Handle} {gone : List (Picture ι)}
    (cleared : Retirement.Cleared recent gone before after) :
    (unissuedOrders after).Perm (unissuedOrders before) := by
  have cores : ∀ pictures : List (Picture ι),
      (((pictures.map Picture.core).filter fun picture => !picture.issued).map
        Picture.displayOrder) =
        (pictures.filter fun picture => !picture.issued).map Picture.displayOrder := by
    intro pictures
    rw [List.filter_map, List.map_map]
    rfl
  have left := (cleared.pictures.filter fun picture => !picture.issued).map Picture.displayOrder
  have none : gone.filter (fun picture => !picture.issued) = [] := by
    rw [List.filter_eq_nil_iff]
    intro picture member
    simp [cleared.gone picture member]
  rw [List.filter_append, List.map_append, cores, cores, cores, none] at left
  exact left.symm

theorem unissuedOrders_empty (empty : window.handles = []) : unissuedOrders window = [] := by
  rw [unissuedOrders, pictures_eq_nil empty]
  rfl

end

section

variable {B : Backend} {start before after encoder : Encoder B.recorded}
  {flight later : List (Handle × B.recorded.Promise)} {packets more : List CodedPicture}
  {accepted : List Frame} {ledger : Ledger B.recorded}

def remaining {B : Backend} (encoder : Encoder B) : List Nat :=
  unissuedOrders encoder.window ++
    List.range' encoder.scheduler.inputOrder encoder.waiting.length

/-- What is requested between two states is what remains no longer. -/
def Asked (before after : Encoder B.recorded) (entered : List Nat) : Prop :=
  ∃ requested, after.backend.requests = before.backend.requests ++ requested ∧
    (requested.map (fun request => request.picture.displayOrder) ++ remaining after).Perm
      (remaining before ++ entered)

theorem Asked.refl (encoder : Encoder B.recorded) : Asked encoder encoder [] :=
  ⟨[], by rw [List.append_nil], by simp⟩

theorem Asked.trans {middle : Encoder B.recorded} {entered next : List Nat}
    (first : Asked before middle entered) (second : Asked middle after next) :
    Asked before after (entered ++ next) := by
  obtain ⟨requested, requests, perm⟩ := first
  obtain ⟨others, requestsAfter, permAfter⟩ := second
  refine ⟨requested ++ others, by rw [requestsAfter, requests, List.append_assoc], ?_⟩
  have both := permAfter.append_left (requested.map fun request => request.picture.displayOrder)
  have whole := both.trans ((List.append_assoc ..) ▸ perm.append_right next)
  rw [List.map_append, List.append_assoc]
  rwa [List.append_assoc] at whole

theorem Asked.silent (requests : after.backend.requests = before.backend.requests)
    (window : (unissuedOrders after.window).Perm (unissuedOrders before.window))
    (inputOrder : after.scheduler.inputOrder = before.scheduler.inputOrder)
    (waiting : after.waiting = before.waiting) : Asked before after [] := by
  refine ⟨[], by rw [requests, List.append_nil], ?_⟩
  rw [remaining, remaining, inputOrder, waiting, List.append_nil]
  exact window.append_right _

theorem Asked.request {request : Request B.Image}
    (requests : after.backend.requests = before.backend.requests ++ [request])
    (window : (request.picture.displayOrder :: unissuedOrders after.window).Perm
      (unissuedOrders before.window))
    (inputOrder : after.scheduler.inputOrder = before.scheduler.inputOrder)
    (waiting : after.waiting = before.waiting) : Asked before after [] := by
  refine ⟨[request], requests, ?_⟩
  rw [remaining, remaining, inputOrder, waiting, List.append_nil]
  exact window.append_right _

theorem orders_picked {scheduler : Scheduler} {window : Window B.Image} {handle : Handle}
    {encodeOrder : Nat} {picture : Picture B.Image} {request : Request B.Image}
    (core : before.Core ledger [] flight)
    (picks : Runs Scheduler.pickNext (before.scheduler, before.window) (.ok (.picture handle))
      (scheduler, window))
    (asks : Asks (B := B.recorded) (window.adjust handle (number (B := B.recorded) encodeOrder))
      handle picture request) :
    (request.picture.displayOrder ::
      unissuedOrders (issuedWindow (B := B.recorded) window handle encodeOrder)).Perm
      (unissuedOrders before.window) := by
  obtain ⟨schedules, pickable⟩ := core.picked picks
  obtain ⟨_, rewrites, _⟩ := schedules.rewrites
  obtain ⟨old, found, waiting⟩ := pickable.waiting
  have numbered := find?_adjust_self found (number (B := B.recorded) encodeOrder)
  cases find?_unique numbered asks.found
  have order : request.picture.displayOrder = old.displayOrder := by
    rw [asks.info]
    rfl
  have same : unissuedOrders window = unissuedOrders before.window :=
    unissuedOrders_eq_of_map_eq (pictures_map_eq_of_plain_eq rewrites.plain _ fun _ => rfl)
  rw [order, ← same, issuedWindow_eq]
  exact unissuedOrders_issue found waiting rfl

theorem Move.asks_left (move : Move before flight more after later) : Asked before after [] := by
  have inputOrder := move.inputOrder
  have waiting := move.waiting
  cases move with
  | issue core _ picks answers =>
      cases answers with
      | accepted asks answer =>
          exact .request (issue_adds answer).1.requests (orders_picked core picks asks) inputOrder
            waiting
  | refuse core picks answers =>
      cases answers with
      | @refused _ _ _ _ gone _ asks answer cleared =>
          have left := (unissuedOrders_cleared cleared).trans
            (List.Perm.of_eq (unissuedOrders_adjust _ fun _ => rfl))
          exact .request (refused_adds (B := B) gone answer).requests
            ((left.cons _).trans (orders_picked core picks asks)) inputOrder waiting
  | deliver _ _ _ delivers =>
      cases delivers with
      | @failed _ _ _ gone _ _ _ answer cleared =>
          have requests := (collected_adds (B := B) gone answer).requests
          rw [List.append_nil] at requests
          exact .silent requests ((unissuedOrders_cleared cleared).trans
            (List.Perm.of_eq (unissuedOrders_adjust _ fun _ => rfl))) inputOrder waiting
      | @coded _ _ _ _ gone _ _ _ _ answer cleared =>
          have requests := (collected_adds (B := B) gone answer).requests
          rw [List.append_nil] at requests
          exact .silent requests ((unissuedOrders_cleared cleared).trans
            (List.Perm.of_eq (unissuedOrders_adjust _ fun _ => rfl))) inputOrder waiting
  | finish core _ issued finishes =>
      cases finishes with
      | @retired gone _ pictures empty =>
          have adds : before.backend.Adds (Encoder.freed (B := B.recorded) before.backend gone)
              [] [] [] [] := freed_adds (B := B) gone
          have requests := adds.requests
          rw [List.append_nil] at requests
          have none : unissuedOrders before.window = [] := by
            rw [unissuedOrders, List.map_eq_nil_iff, List.filter_eq_nil_iff]
            intro picture member
            obtain ⟨entry, isEntry, rfl⟩ := List.mem_map.mp member
            have found := find?_of_mem_entries isEntry
            simp [issued entry.1 entry.2 found]
          refine .silent requests ?_ inputOrder waiting
          rw [none]
          exact List.Perm.of_eq (unissuedOrders_empty empty)

theorem Moves.inputOrder (moves : Moves before flight more after later) :
    after.scheduler.inputOrder = before.scheduler.inputOrder := by
  induction moves with
  | none => rfl
  | next _ move ih => exact move.inputOrder.trans ih

theorem Moves.asks_left (moves : Moves before flight more after later) : Asked before after [] := by
  induction moves with
  | none => exact .refl _
  | next _ move ih => exact ih.trans move.asks_left

theorem Entry.asks_left (entry : Entry before after) :
    Asked before after [] ∧ after.scheduler.inputOrder + after.waiting.length =
      before.scheduler.inputOrder + before.waiting.length := by
  cases entry with
  | nothing => exact ⟨.refl _, rfl⟩
  | @frame frame rest image _ _ waiting answer =>
      constructor
      · refine ⟨[], (allocated_adds answer).requests, ?_⟩
        have entered : unissuedOrders (before.window.enter (Picture.ofFrame
            before.scheduler.inputOrder frame (before.scheduler.inputOrder == 0 || frame.forceKey)
            image)).2 = unissuedOrders before.window ++ [before.scheduler.inputOrder] :=
          unissuedOrders_enter rfl
        rw [List.append_nil, remaining, remaining, waiting, List.length_cons, List.range'_succ,
          List.append_cons, ← entered]
        exact List.Perm.refl _
      · show before.scheduler.inputOrder + 1 + rest.length = _
        rw [waiting, List.length_cons]
        omega
  | ending => exact ⟨.silent rfl (.refl _) rfl rfl, rfl⟩

/-- What a session asks for is what it took in: between any two states, unless it fails, the requests
are those of the pictures that waited and of the frames that came, less those that still wait. -/
theorem Course.asks_left (course : Course SameCalls start accepted packets after)
    (alive : after.failed = false) :
    Asked start after (List.range' (start.scheduler.inputOrder + start.waiting.length)
      accepted.length) ∧
    after.scheduler.inputOrder + after.waiting.length =
      start.scheduler.inputOrder + start.waiting.length + accepted.length := by
  induction course with
  | start => exact ⟨.refl _, rfl⟩
  | step _ _ strode ih =>
      obtain ⟨asked, counted⟩ := ih (strode.alive_before alive)
      cases strode with
      | dead failed => simp [failed] at alive
      | fatal => simp at alive
      | alive _ strides survives =>
          cases strides with
          | lost _ failed => cases survives _ failed
          | went entry picks _ last =>
              have moves := picks.last last
              obtain ⟨first, kept⟩ := entry.asks_left
              have whole := asked.trans (first.trans moves.asks_left)
              rw [List.append_nil, List.append_nil] at whole
              refine ⟨whole, ?_⟩
              rw [moves.waiting, moves.inputOrder, kept, counted]
  | @accept accepted _ before _ frame aliveBefore _ ih =>
      obtain ⟨⟨requested, requests, perm⟩, counted⟩ := ih aliveBefore
      constructor
      · refine ⟨requested, requests, ?_⟩
        have longer : remaining { before with waiting := before.waiting ++ [frame] } =
            remaining before ++ [before.scheduler.inputOrder + before.waiting.length] := by
          rw [remaining, remaining, List.length_append, List.length_singleton, List.range'_concat,
            Nat.one_mul, List.append_assoc]
        rw [longer, List.length_append, List.length_singleton, List.range'_concat, Nat.one_mul,
          ← counted, ← List.append_assoc, ← List.append_assoc]
        exact perm.append_right _
      · show before.scheduler.inputOrder + (before.waiting ++ [frame]).length = _
        simp only [List.length_append, List.length_singleton]
        omega
  | drain _ ih => exact ih alive
  | code _ _ ih => exact ih alive
  | abandon _ failed => simp [failed] at alive
  | progress _ moved ih =>
      obtain ⟨asked, counted⟩ := ih alive
      have silent := (adds_of_calls moved).requests
      rw [List.append_nil] at silent
      obtain ⟨requested, requests, perm⟩ := asked
      exact ⟨⟨requested, silent.trans requests, perm⟩, counted⟩

theorem fine_or_first (outcomes : List (Except EncodeError Step)) :
    (∀ outcome ∈ outcomes, ∃ step, outcome = .ok step) ∨
      ∃ earlier cause later, outcomes = earlier ++ .error cause :: later ∧
        ∀ outcome ∈ earlier, ∃ step, outcome = .ok step := by
  induction outcomes with
  | nil => simp
  | cons outcome rest ih =>
      cases outcome with
      | error cause => exact Or.inr ⟨[], cause, rest, rfl, by simp⟩
      | ok step =>
          rcases ih with fine | ⟨earlier, cause, later, rfl, fine⟩
          · exact Or.inl (by simpa using fine)
          · exact Or.inr ⟨.ok step :: earlier, cause, later, rfl, by simpa using fine⟩

theorem Reports.passes {outcomes : List (Except EncodeError Step)} {result : Except EncodeError Unit}
    (reports : Reports outcomes result)
    (mild : ∀ cause, .error cause ∈ outcomes → cause.isFatal = false) : Passes result := by
  rcases fine_or_first outcomes with fine | ⟨earlier, cause, later, split, fine⟩
  · rw [reports.fine fine]
    simp [Passes]
  · rw [reports.mild earlier cause later split fine mild]
    intro other same
    cases same
    exact mild cause (by simp [split])

/-- Everything that a session had to encode went through its backend: what waited was requested, what
was requested is done with, and nothing is left. -/
structure Emptied (before after : Encoder B.recorded) : Prop where
  requested : ∃ requested, after.backend.requests = before.backend.requests ++ requested ∧
    (requested.map fun request => request.picture.displayOrder).Perm before.remaining
  settled : (after.backend.fates.map Prod.fst).Perm (after.backend.requests.map Request.picture)
  exhausted : after.Exhausted

theorem Reachable.drain_empties {start : Recorded B} (nothing : start.calls = [])
    (reachable : Reachable (B := B.recorded) start SameCalls encoder)
    (passes : Passes (drain encoder).result) : Emptied encoder (drain encoder).state := by
  obtain ⟨config, mode, gop, accepted, packets, valid, made, course⟩ := reachable.course
  have sound := reachable.invariant
  have here : Course SameCalls encoder [] [] encoder := .start
  obtain ⟨result, after, runs, ⟨_, ⟨produced, draining, _⟩, _, finishes⟩, _,
      ⟨all, whole, _⟩, _⟩ := (drain_course sound here).and (drain_course sound course)
  rw [runs.result_eq] at passes
  rw [runs.state_eq]
  obtain ⟨alive, exhausted⟩ := finishes passes
  obtain ⟨⟨requested, requests, perm⟩, _⟩ := draining.asks_left alive
  obtain ⟨admitted, chronicle, _⟩ :=
    whole.chronicle (Chronicle.start nothing valid made mode) rfl alive
  rw [exhausted.queue] at chronicle
  have left : after.remaining = [] := by
    rw [remaining, unissuedOrders_empty exhausted.window, exhausted.waiting]
    rfl
  refine ⟨⟨requested, requests, ?_⟩, ?_, exhausted⟩
  · rw [left] at perm
    simpa using perm
  · have settled := chronicle.accounts.settled
    rwa [List.map_nil, List.append_nil] at settled

def polled : Received → Option CodedPicture
  | .packet picture => some picture
  | .wouldBlock | .endOfStream => none

theorem poll_runs {result : Except EncodeError Received} {after : Encoder B.recorded}
    (runs : Runs (nextPacket .nonBlocking) encoder result after) :
    Runs poll encoder (result.map polled) after := by
  cases result with
  | error cause => exact Runs.bind_error runs
  | ok received => cases received <;> exact runs.bind (runs_pure _ _)

/-- Draining ends after no more steps than the work that was left takes, in every state of a session
that has not failed. It reports what its steps came to, and unless an error was fatal, all that was
left has gone through the backend. Asking for a packet ends within the same number of steps, in every
state. -/
theorem Reachable.drain_ends {start : Recorded B} (nothing : start.calls = [])
    (reachable : Reachable (B := B.recorded) start SameCalls encoder) :
    (encoder.failed = false → ∃ outcomes,
      Loop .blocking drainsOn queueing { encoder with draining := true } outcomes
        (drain encoder).state ∧
      outcomes.length ≤
        3 * encoder.waiting.length + 2 * encoder.unissued + encoder.inFlight + 3 ∧
      Reports outcomes (drain encoder).result ∧
      ((∀ cause, .error cause ∈ outcomes → cause.isFatal = false) →
        Emptied encoder (drain encoder).state)) ∧
    (∃ outcomes, Searches encoder.mode encoder outcomes (receive encoder).result
        (receive encoder).state ∧
      outcomes.length ≤
        3 * encoder.waiting.length + 2 * encoder.unissued + encoder.inFlight + 3) ∧
    ∃ outcomes received, Searches .nonBlocking encoder outcomes received (poll encoder).state ∧
      (poll encoder).result = received.map polled ∧
      outcomes.length ≤
        3 * encoder.waiting.length + 2 * encoder.unissued + encoder.inFlight + 3 := by
  have sound := reachable.invariant
  refine ⟨?_, ?_, ?_⟩
  · intro _
    obtain ⟨outcomes, result, after, loop, short, reports, runs⟩ := drain_loop sound
    rw [← runs.result_eq] at reports
    refine ⟨outcomes, ?_, short, reports, ?_⟩
    · rw [runs.state_eq]
      exact loop
    · intro mild
      apply Reachable.drain_empties nothing reachable
      exact reports.passes mild
  · obtain ⟨outcomes, result, after, searches, short, runs⟩ :=
      nextPacket_searches sound encoder.mode
    have receiving : Runs receive encoder result after := (runs_get _).bind runs
    rw [receiving.result_eq, receiving.state_eq]
    exact ⟨outcomes, searches, short⟩
  · obtain ⟨outcomes, result, after, searches, short, runs⟩ :=
      nextPacket_searches sound .nonBlocking
    have polling := poll_runs runs
    rw [polling.result_eq, polling.state_eq]
    exact ⟨outcomes, result, searches, rfl, short⟩

/-- A device that fails on two of the five frames, one of them picked and four to be taken in. -/
def undrained : Encoder Backend.simulated.recorded :=
  (performAll ([.encode {}, .poll] ++ List.replicate 4 (.encode {}))
    (onDevice faultyDevice { asyncDepth := 3 } .nonBlocking)).2

theorem undrained_reachable :
    Reachable (B := Backend.simulated.recorded) { inner := faultyDevice } SameCalls undrained :=
  (Calls.none.performAll _).reachable (.created { asyncDepth := 3 } .nonBlocking rfl)

theorem drain_ends_undrained :
    undrained.waiting.length = 4 ∧ undrained.unissued = 1 ∧ undrained.inFlight = 0 ∧
      (drain undrained).result = .error (.issueFailure 1 (.other "injected issue failure")) ∧
      (∃ outcomes, Loop .blocking drainsOn queueing { undrained with draining := true } outcomes
          (drain undrained).state ∧
        outcomes.length ≤ 17 ∧ Emptied undrained (drain undrained).state) ∧
      (∃ outcomes, Searches .nonBlocking undrained outcomes (receive undrained).result
        (receive undrained).state ∧ outcomes.length ≤ 17) ∧
      ∃ outcomes received, Searches .nonBlocking undrained outcomes received (poll undrained).state ∧
        (poll undrained).result = received.map polled ∧ outcomes.length ≤ 17 := by
  have answer : (drain undrained).result =
      .error (.issueFailure 1 (.other "injected issue failure")) := by decide +kernel
  obtain ⟨drains, receives, polls⟩ := Reachable.drain_ends rfl undrained_reachable
  obtain ⟨outcomes, loop, short, reports, empties⟩ := drains (by decide +kernel)
  have mild : ∀ cause, .error cause ∈ outcomes → cause.isFatal = false := by
    intro cause member
    obtain ⟨earlier, later, split⟩ := List.append_of_mem member
    by_contra fatal
    have result := (reports.fatal earlier cause later split (by simpa using fatal)).2
    rw [answer] at result
    cases result
    exact fatal rfl
  exact ⟨by decide +kernel, by decide +kernel, by decide +kernel, answer,
    ⟨outcomes, loop, short, empties mild⟩, receives, polls⟩

end

end VideoSchedule.Encoder

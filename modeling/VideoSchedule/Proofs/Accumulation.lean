import Mathlib.Data.List.Dedup
import VideoSchedule.Proofs.Conformance
import VideoSchedule.Proofs.Lookahead

/-!
Complete pictures do not pile up. One that stays is claimed by a picture that is not complete, by a
past picture, or by one that such a picture claims in turn, and no picture claims more than a few:
retirement cuts every chain of references after two links.
-/

namespace VideoSchedule

open VideoSchedule.Action Window Hierarchy

variable {ι : Type}

/-! What a picture holds. -/

def Picture.span (picture : Picture ι) : List Handle := picture.held.dedup

/-- Most pictures that one holds: itself, its two references, the picture before it, and what is kept
for the future reference, one picture for each further layer. -/
def maxSpan : Nat := 8

theorem Picture.length_span_le {picture : Picture ι} {names : List Handle}
    (subset : ∀ target ∈ picture.held, target ∈ names) : picture.span.length ≤ names.length := by
  have within : picture.span ⊆ names := by
    intro target member
    exact subset target (List.mem_dedup.mp member)
  exact ((List.nodup_dedup picture.held).subperm within).length_le

theorem Picture.span_of_held_eq {picture other : Picture ι} (same : other.held = picture.held) :
    other.span = picture.span := congrArg List.dedup same

theorem Mark.Describes.length_span {mark : Mark Handle} {picture : Picture ι}
    (describes : mark.Describes picture) :
    picture.span.length ≤ mark.needs.length + mark.isReference.toNat + 1 := by
  have subset : ∀ target ∈ picture.held, target ∈ mark.leaves ++ picture.previous.toList := by
    intro target member
    simp only [Picture.held, describes.past, describes.future, describes.dpb, List.mem_append]
      at member
    simp only [Mark.leaves, Mark.needs, List.mem_append, List.mem_cons] at member ⊢
    grind
  have long := Picture.length_span_le subset
  have one : picture.previous.toList.length ≤ 1 := by cases picture.previous <;> simp
  have leaves : mark.leaves.length = mark.needs.length + mark.isReference.toNat := by
    cases reference : mark.isReference <;> simp [Mark.leaves, reference]
  rw [List.length_append] at long
  omega

namespace PastPictures

theorem length_nearest (order : Nat) (candidates : List Nat) :
    (nearest order candidates).length = candidates.length := by
  have inserted : ∀ (candidate : Nat) (others : List Nat),
      (insertOrder order candidate others).length = others.length + 1 := by
    intro candidate others
    induction others with
    | nil => rfl
    | cons next rest ih =>
        rw [insertOrder]
        split
        · rfl
        · rw [List.length_cons, ih, List.length_cons]
  induction candidates with
  | nil => rfl
  | cons candidate rest ih =>
      have stepped := inserted candidate (nearest order rest)
      rw [ih] at stepped
      exact stepped

theorem length_aims {past : PastPictures} (short : past.recent.length ≤ maxListReferences)
    (window : Window ι) (handle : Handle) (start : Option Handle) :
    (past.aims window handle start).length ≤ maxListReferences := by
  rw [aims]
  split
  · rwa [length_nearest, List.length_map]
  · cases start <;> simp [maxListReferences]

theorem Predicts.length_span {past : PastPictures} {window : Window ι} {handle : Handle}
    {start : Option Handle} {skipped : Nat} {picture : Picture ι}
    (predicts : past.Predicts window handle start skipped picture)
    (short : past.recent.length ≤ maxListReferences) (noFuture : picture.future = []) :
    picture.span.length ≤ maxSpan := by
  have aims : (past.aims window handle start).length ≤ 2 := length_aims short window handle start
  have references : picture.past.length ≤ 2 := by
    have sized := congrArg List.length predicts.references
    rw [List.length_map] at sized
    split at sized
    · rw [sized]
      exact Nat.zero_le _
    · omega
  obtain ⟨kept, dpb, _, orders⟩ := predicts.dpb
  have keeps : kept.length ≤ 2 := by
    have sized := congrArg List.length orders
    rw [List.length_map] at sized
    split at sized
    · rw [sized]
      exact Nat.zero_le _
    · omega
  have one : picture.previous.toList.length ≤ 1 := by cases picture.previous <;> simp
  have long : picture.span.length ≤ picture.held.length :=
    Picture.length_span_le fun _ member => member
  simp only [Picture.held, noFuture, dpb, List.length_append, List.length_cons,
    List.length_nil] at long
  rw [maxSpan]
  omega

end PastPictures

namespace Window

variable {window before after last : Window ι} {recent names : List Handle} {handle : Handle}

def Narrow (window : Window ι) : Prop :=
  ∀ handle picture, window.find? handle = some picture → picture.span.length ≤ maxSpan

/-- The pictures that were scheduled and are not complete are among these. -/
def Busy (window : Window ι) (names : List Handle) : Prop :=
  ∀ handle picture, window.find? handle = some picture → picture.complete = false →
    picture.held ≠ [] → handle ∈ names

def Ages (before after : Window ι) : Prop :=
  ∀ handle other, after.find? handle = some other → ∃ picture,
    before.find? handle = some picture ∧ other.held = picture.held ∧
      (picture.complete = true → other.complete = true)

theorem Ages.adjust (handle : Handle) (change : Picture ι → Picture ι) (window : Window ι)
    (held : ∀ picture, (change picture).held = picture.held)
    (complete : ∀ picture, picture.complete = true → (change picture).complete = true) :
    window.Ages (window.adjust handle change) := by
  intro key other found
  rw [find?_adjust] at found
  split at found
  · obtain ⟨picture, foundOld, rfl⟩ := Option.map_eq_some_iff.mp found
    exact ⟨picture, foundOld, held picture, complete picture⟩
  · exact ⟨other, found, rfl, id⟩

theorem Ages.cleared {gone : List (Picture ι)}
    (cleared : Retirement.Cleared recent gone before after) : before.Ages after := by
  intro key other found
  obtain ⟨picture, foundOld, stays⟩ := cleared.back found
  exact ⟨picture, foundOld, stays.held, fun done => stays.complete.trans done⟩

theorem Narrow.ages (narrow : before.Narrow) (ages : before.Ages after) : after.Narrow := by
  intro handle other found
  obtain ⟨picture, foundOld, held, _⟩ := ages handle other found
  rw [Picture.span_of_held_eq held]
  exact narrow handle picture foundOld

theorem Busy.ages (busy : before.Busy names) (ages : before.Ages after) : after.Busy names := by
  intro handle other found incomplete holding
  obtain ⟨picture, foundOld, held, complete⟩ := ages handle other found
  rw [held] at holding
  refine busy handle picture foundOld ?_ holding
  by_contra done
  rw [complete (Bool.not_eq_false _ ▸ done)] at incomplete
  cases incomplete

theorem Busy.mono {more : List Handle} (busy : window.Busy names)
    (subset : ∀ name ∈ names, name ∈ more) : window.Busy more := by
  intro handle picture found incomplete holding
  exact subset handle (busy handle picture found incomplete holding)

theorem Busy.finish {change : Picture ι → Picture ι} (busy : window.Busy (handle :: names))
    (held : ∀ picture, (change picture).held = picture.held)
    (complete : ∀ picture, (change picture).complete = true) :
    (window.adjust handle change).Busy names := by
  intro key other found incomplete holding
  have before := busy.ages (Ages.adjust handle change window held fun picture _ => complete picture) key
    other found incomplete holding
  rcases List.mem_cons.mp before with rfl | member
  · rw [find?_adjust, if_pos rfl] at found
    obtain ⟨picture, _, rfl⟩ := Option.map_eq_some_iff.mp found
    rw [complete] at incomplete
    cases incomplete
  · exact member

theorem narrow_enter (narrow : window.Narrow)
    {picture : Picture ι} (fresh : picture.Fresh) : (window.enter picture).2.Narrow := by
  intro handle other found
  rw [find?_enter picture handle window] at found
  split at found
  · cases found
    simp [Picture.span, fresh.held]
  · exact narrow handle other found

theorem busy_enter (busy : window.Busy names)
    {picture : Picture ι} (fresh : picture.Fresh) : (window.enter picture).2.Busy names := by
  intro handle other found incomplete holding
  rw [find?_enter picture handle window] at found
  split at found
  · cases found
    exact absurd fresh.held holding
  · exact busy handle other found incomplete holding

/-! Complete pictures that stay. -/

def dwelling (window : Window ι) : Nat := window.pictures.countP Picture.complete

theorem dwelling_eq_of_map_eq
    (same : after.pictures.map Picture.complete = before.pictures.map Picture.complete) :
    after.dwelling = before.dwelling := by
  have counted := congrArg (List.countP fun complete => complete) same
  rwa [List.countP_map, List.countP_map] at counted

theorem dwelling_enter {picture : Picture ι} (incomplete : picture.complete = false)
    (window : Window ι) : (window.enter picture).2.dwelling = window.dwelling := by
  rw [dwelling, pictures_enter, List.countP_append, dwelling]
  simp [incomplete]

def reach (window : Window ι) (handles : List Handle) : List Handle :=
  handles.flatMap fun handle => ((window.find? handle).map Picture.span).getD []

theorem mem_reach {handles : List Handle} {target : Handle} {picture : Picture ι}
    (member : handle ∈ handles) (found : window.find? handle = some picture)
    (holds : target ∈ picture.held) : target ∈ window.reach handles := by
  refine List.mem_flatMap.mpr ⟨handle, member, ?_⟩
  rw [found]
  exact List.mem_dedup.mpr holds

theorem Narrow.length_reach (narrow : window.Narrow) (handles : List Handle) :
    (window.reach handles).length ≤ maxSpan * handles.length := by
  induction handles with
  | nil => exact Nat.zero_le _
  | cons handle rest ih =>
      have here : (((window.find? handle).map Picture.span).getD []).length ≤ maxSpan := by
        cases found : window.find? handle with
        | none => exact Nat.zero_le _
        | some picture => exact narrow handle picture found
      rw [reach, List.flatMap_cons, List.length_append, List.length_cons, Nat.mul_succ]
      rw [reach] at ih
      omega

def holders (window : Window ι) (recent names : List Handle) : List Handle :=
  names ++ recent ++ window.reach names

theorem length_holders (narrow : window.Narrow) (short : recent.length ≤ maxListReferences)
    (names : List Handle) :
    (window.holders recent names).length ≤ 9 * names.length + 2 := by
  have reached : (window.reach names).length ≤ 8 * names.length := narrow.length_reach names
  have few : recent.length ≤ 2 := short
  rw [holders, List.length_append, List.length_append]
  omega

section

variable {tail : Option Handle} {target : Handle} {picture : Picture ι}

theorem Busy.claims_direct (busy : window.Busy names) (swept : Retirement.Swept tail window)
    (found : window.find? handle = some picture) (claimed : target ∈ picture.claims .direct) :
    handle ∈ names ++ tail.toList := by
  obtain ⟨holding, member⟩ := Picture.mem_claims_iff.mp claimed
  rw [List.mem_append, Option.mem_toList]
  cases complete : picture.complete with
  | false =>
      left
      exact busy handle picture found complete (List.ne_nil_of_mem member)
  | true =>
      right
      by_contra other
      have given := swept.direct handle picture found complete fun same => other same.symm
      cases holding.symm.trans given

theorem Busy.claims_indirect (busy : window.Busy names) (tidy : window.Tidy recent)
    (swept : Retirement.Swept tail window)
    (found : window.find? handle = some picture) (claimed : target ∈ picture.claims .indirect) :
    handle ∈ window.holders recent (names ++ tail.toList) := by
  obtain ⟨holding, member⟩ := Picture.mem_claims_iff.mp claimed
  rw [holders, List.mem_append, List.mem_append]
  cases complete : picture.complete with
  | false =>
      left; left
      exact List.mem_append_left _
        (busy handle picture found complete (List.ne_nil_of_mem member))
  | true =>
      rcases swept.keeper tidy found complete holding with past | ⟨key, holder, foundHolder, holds⟩
      · left; right
        exact past
      · right
        exact mem_reach (busy.claims_direct swept foundHolder holds) foundHolder
          (Picture.mem_claims_iff.mp holds).2

theorem Busy.reached (busy : window.Busy names) (tidy : window.Tidy recent)
    (swept : Retirement.Swept tail window)
    (found : window.find? handle = some picture) (complete : picture.complete = true) :
    handle ∈ window.reach (window.holders recent (names ++ tail.toList)) := by
  obtain ⟨key, holder, foundHolder, holds⟩ := swept.claimer tidy found complete
  exact mem_reach (busy.claims_indirect tidy swept foundHolder holds) foundHolder
    (Picture.mem_claims_iff.mp holds).2

/-- A complete picture that stays is claimed by a busy picture, the last one or a past picture, or by
one that a busy picture or the last one claims. -/
theorem Busy.dwelling_le (busy : window.Busy names) (tidy : window.Tidy recent)
    (swept : Retirement.Swept tail window) (narrow : window.Narrow)
    (short : recent.length ≤ maxListReferences) :
    window.dwelling ≤ 72 * (names.length + 1) + 16 := by
  have within : (window.select fun _ picture => picture.complete) ⊆
      window.reach (window.holders recent (names ++ tail.toList)) := by
    intro handle member
    obtain ⟨picture, found, complete⟩ := (mem_select_iff _ handle).mp member
    exact busy.reached tidy swept found complete
  have once : (window.select fun _ picture => picture.complete).Nodup :=
    (select_sublist window _).nodup window.handles_nodup
  have counted : window.dwelling = (window.select fun _ picture => picture.complete).length := by
    rw [dwelling, pictures, List.countP_map, select, List.length_map,
      List.countP_eq_length_filter]
    rfl
  have one : tail.toList.length ≤ 1 := by cases tail <;> simp
  have held := narrow.length_reach (window.holders recent (names ++ tail.toList))
  have few := length_holders narrow short (names ++ tail.toList)
  rw [List.length_append] at few
  rw [maxSpan] at held
  calc window.dwelling
      = (window.select fun _ picture => picture.complete).length := counted
    _ ≤ (window.reach (window.holders recent (names ++ tail.toList))).length :=
        (once.subperm within).length_le
    _ ≤ 8 * (window.holders recent (names ++ tail.toList)).length := held
    _ ≤ 72 * (names.length + 1) + 16 := by omega

end

end Window

namespace Scheduler

variable {scheduler other : Scheduler} {window after : Window ι} {start : Option Handle}
  {laid fresh front back names : List Handle} {handle : Handle} {forced : Bool}

inductive Chooses (scheduler : Scheduler) (window : Window ι) (handle : Handle) :
    Scheduler → Window ι → Prop where
  | ready : Chooses scheduler window handle scheduler window
  | anchor {laid front back : List Handle} {forced : Bool} {other : Scheduler} {after : Window ι}
      (arranged : scheduler.Arranged window laid (front ++ handle :: back))
      (issued : ∀ key ∈ laid, ∃ picture, window.find? key = some picture ∧ picture.issued = true)
      (opens : laid = [] → front = []) (few : front.length ≤ scheduler.gop.bPerGroup)
      (groups : Groups scheduler window laid.getLast? front handle forced other after) :
      Chooses scheduler window handle other after

theorem nextAnchor_few {group : Group}
    (chosen : scheduler.nextAnchor window = .ok (group, handle)) :
    group.skipped ≤ scheduler.gop.bPerGroup := by
  rcases nextAnchor_cases chosen with found | ⟨_, left, found, closed⟩
  · exact findAnchor_few found (Nat.zero_le _)
  · have few := findAnchor_few found (Nat.zero_le _)
    rw [closeStream_skipped_eq closed]
    exact Nat.le_trans (Nat.sub_le _ 1) few

theorem Arranged.chooses (arranged : scheduler.Arranged window laid fresh)
    (tidy : window.Tidy scheduler.past.recent)
    (picks : Runs pickNext (scheduler, window) (.ok (.picture handle)) (other, after)) :
    Chooses scheduler window handle other after := by
  have live : ∀ entry ∈ window.entries, entry.2.issued = false → ∀ target ∈ entry.2.held,
      target ∈ window.handles := by
    intro entry member waiting
    have found := find?_of_mem_entries member
    exact tidy.held_live_of_incomplete found ((tidy.consistent _ _ found).incomplete waiting)
  obtain ⟨answer, searched, readied⟩ := readyB_ok live
  cases readied with
  | @ready key =>
      have runs : Runs pickNext (scheduler, window) (.ok (.picture key)) (scheduler, window) :=
        (runs_get _).bind ((runs_ofExcept_ok searched _).bind (runs_pure _ _))
      cases runs.state_eq.symm.trans picks.state_eq
      exact .ready
  | none blocked =>
      have issued := arranged.issued_of_none blocked
      have anchoring := arranged.nextAnchor_ok tidy issued
      have stops : ∀ pick, scheduler.nextAnchor window = .error pick →
          (∀ key, pick ≠ .picture key) → Chooses scheduler window handle other after := by
        intro pick chosen apart
        have runs : Runs pickNext (scheduler, window) (.ok pick) (scheduler, window) := by
          refine pickNext_runs searched ?_
          rw [chosen]
          exact runs_pure _ _
        cases runs.result_eq.symm.trans picks.result_eq
        exact absurd rfl (apart handle)
      cases chosen : scheduler.nextAnchor window with
      | error pick =>
          apply stops pick chosen
          intro key same
          rw [chosen, same] at anchoring
          cases anchoring
      | ok result =>
          obtain ⟨group, key⟩ := result
          have few := nextAnchor_few chosen
          rw [chosen] at anchoring
          cases anchoring with
          | found front _ back split opens =>
              subst split
              obtain ⟨picture, found, _⟩ := arranged.unscheduled key (by simp)
              obtain ⟨last, window₁, taking, _, _, groups, _⟩ :=
                takeAnchor_ok arranged tidy issued opens found
              have runs : Runs pickNext (scheduler, window) (.ok (.picture key))
                  (last, window₁) := by
                refine pickNext_runs searched ?_
                rw [chosen]
                exact taking.bind (runs_pure _ _)
              cases runs.result_eq.symm.trans picks.result_eq
              cases runs.state_eq.symm.trans picks.state_eq
              exact .anchor arranged issued (fun empty => (opens empty).1) few groups

namespace Groups

theorem narrow (groups : Groups scheduler window start front handle forced other after)
    (opens : start = none → front = []) (short : scheduler.past.recent.length ≤ maxListReferences)
    (layers : scheduler.gop.maxBDepth ≤ 5) (narrow : window.Narrow) : after.Narrow := by
  intro key picture found
  by_cases touched : key ∈ front ++ [handle]
  · rcases List.mem_append.mp touched with inFront | single
    · have inChart := (pictures_groupMarks handle opens scheduler.gop.maxBDepth).mem_iff.mpr inFront
      obtain ⟨mark, member, rfl⟩ := List.mem_map.mp inChart
      obtain ⟨same, foundMark, describes⟩ := groups.charted mark member
      cases find?_unique found foundMark
      have needed : mark.needs.length + mark.isReference.toNat ≤ 6 := by
        cases start with
        | none => cases member
        | some start =>
            have bound := length_needs_chart _ _ _ _ _ _ mark member
            rw [List.length_nil] at bound
            omega
      have long := describes.length_span
      rw [maxSpan]
      omega
    · obtain ⟨anchor, foundAnchor, _, _, _, noFuture, predicts⟩ := groups.anchor
      rw [List.mem_singleton.mp single] at found
      cases find?_unique found foundAnchor
      exact predicts.length_span short noFuture
  · obtain ⟨holds, foundBefore⟩ := groups.rewrites.find?_back found touched
    have kept := narrow key (picture.withHolds holds) foundBefore
    exact kept

theorem busy (groups : Groups scheduler window laid.getLast? front handle forced other after)
    (arranged : scheduler.Arranged window laid (front ++ handle :: back))
    (flying : ∀ key picture, window.find? key = some picture → picture.issued = true →
      picture.complete = false → key ∈ names)
    (issued : ∀ key ∈ laid, ∃ picture, window.find? key = some picture ∧ picture.issued = true) :
    after.Busy (handle :: (names ++ front)) := by
  intro key picture found incomplete holding
  rw [List.mem_cons, List.mem_append]
  by_cases touched : key ∈ front ++ [handle]
  · rcases List.mem_append.mp touched with inFront | single
    · exact .inr (.inr inFront)
    · exact .inl (List.mem_singleton.mp single)
  · obtain ⟨holds, foundBefore⟩ := groups.rewrites.find?_back found touched
    have live := mem_handles_of_find? foundBefore
    rw [arranged.handles] at live
    rcases List.mem_append.mp live with isLaid | isFresh
    · obtain ⟨same, foundSame, isIssued⟩ := issued key isLaid
      cases find?_unique foundBefore foundSame
      exact .inr (.inl (flying key _ foundBefore isIssued incomplete))
    · obtain ⟨same, foundSame, fresh⟩ := arranged.unscheduled key isFresh
      cases find?_unique foundBefore foundSame
      exact absurd fresh.held holding

end Groups

end Scheduler

namespace Encoder

open Scheduler

variable {B : Backend} {ledger : Ledger B} {before after opening encoder : Encoder B}
  {flight later : List (Handle × B.Promise)} {packets : List CodedPicture} {accepted : List Frame}
  {depth frames : Nat} {start : B.State} {progress : B.State → B.State → Prop}
  {handle : Handle} {names : List Handle}

def dwelling (encoder : Encoder B) : Nat := encoder.window.dwelling

/-- What keeps complete pictures from piling up, with at most `depth` pictures in flight and `frames`
B-pictures in a group. -/
structure Trim (depth frames : Nat) (encoder : Encoder B) (flight : List (Handle × B.Promise)) :
    Prop where
  capacity : encoder.queue.capacity = depth
  groups : encoder.scheduler.gop.bPerGroup ≤ frames
  layers : encoder.scheduler.gop.maxBDepth ≤ 5
  positive : 0 < depth
  room : flight.length ≤ depth
  narrow : encoder.window.Narrow
  busy : ∃ names, names.length ≤ frames ∧ encoder.window.Busy (flight.map Prod.fst ++ names)
  few : encoder.dwelling ≤ 80 * (depth + frames + 1)

theorem Trim.of_setting (trim : before.Trim depth frames flight) (setting : Setting before after)
    (room : later.length ≤ depth) (narrow : after.window.Narrow)
    (busy : ∃ names, names.length ≤ frames ∧ after.window.Busy (later.map Prod.fst ++ names))
    (few : after.dwelling ≤ 80 * (depth + frames + 1)) : after.Trim depth frames later where
  capacity := setting.capacity.trans trim.capacity
  groups := Nat.le_trans (Nat.le_of_eq setting.bPerGroup) trim.groups
  layers := Nat.le_trans (Nat.le_of_eq setting.maxBDepth) trim.layers
  positive := trim.positive
  room := room
  narrow := narrow
  busy := busy
  few := few

theorem Trim.of_window (trim : before.Trim depth frames flight) (setting : Setting before after)
    (same : after.window = before.window) : after.Trim depth frames flight := by
  refine trim.of_setting setting trim.room ?_ ?_ ?_
  · rw [same]
    exact trim.narrow
  · rw [same]
    exact trim.busy
  · rw [dwelling, same]
    exact trim.few

theorem Trim.of_empty (trim : before.Trim depth frames flight) (setting : Setting before after)
    (empty : after.window.handles = []) : after.Trim depth frames [] := by
  have nothing : ∀ {handle : Handle} {picture : Picture B.Image},
      after.window.find? handle = some picture → False := by
    intro handle picture found
    have live := mem_handles_of_find? found
    rw [empty] at live
    cases live
  refine trim.of_setting setting (Nat.zero_le _) ?_ ⟨[], Nat.zero_le _, ?_⟩ ?_
  · intro handle picture found
    exact (nothing found).elim
  · intro handle picture found
    exact (nothing found).elim
  · rw [dwelling, Window.dwelling, pictures_eq_nil empty]
    exact Nat.zero_le _

theorem Trim.chosen (trim : before.Trim depth frames flight) (core : before.Core ledger [] flight)
    {scheduler : Scheduler} {window : Window B.Image}
    (picks : Runs pickNext (before.scheduler, before.window) (.ok (.picture handle))
      (scheduler, window)) :
    window.Narrow ∧ scheduler.past.recent.length ≤ maxListReferences ∧
      window.dwelling = before.dwelling ∧
      ∃ names, names.length ≤ frames ∧ window.Busy (handle :: (flight.map Prod.fst ++ names)) := by
  obtain ⟨schedules, pickable⟩ := core.picked picks
  obtain ⟨_, rewrites, _⟩ := schedules.rewrites
  obtain ⟨laid, fresh, arranged⟩ := core.arranged
  obtain ⟨_, _, _, arrangedAfter⟩ := pickable.arranged
  have dwellings : window.dwelling = before.dwelling :=
    dwelling_eq_of_map_eq (pictures_map_eq_of_plain_eq rewrites.plain Picture.complete fun _ => rfl)
  have short := arrangedAfter.short
  cases arranged.chooses core.tidy picks with
  | ready =>
      obtain ⟨names, few, busy⟩ := trim.busy
      exact ⟨trim.narrow, short, dwellings, names, few,
        busy.mono fun name member => List.mem_cons_of_mem _ member⟩
  | @anchor _ front _ _ _ _ arrangedBefore issued opens few groups =>
      refine ⟨?_, short, dwellings, front, Nat.le_trans few trim.groups, ?_⟩
      · refine groups.narrow ?_ arranged.short trim.layers trim.narrow
        intro none
        exact opens (List.getLast?_eq_none_iff.mp none)
      · refine groups.busy arrangedBefore ?_ issued
        intro key picture found isIssued incomplete
        exact (core.flying key).mpr ⟨picture, found, isIssued, incomplete⟩

theorem ages_issuedWindow (window : Window B.Image) (handle : Handle) (encodeOrder : Nat) :
    window.Ages (issuedWindow window handle encodeOrder) := by
  rw [issuedWindow_eq]
  exact Ages.adjust handle _ window (fun _ => rfl) fun _ => id

theorem dwelling_issuedWindow (window : Window B.Image) (handle : Handle) (encodeOrder : Nat) :
    (issuedWindow window handle encodeOrder).dwelling = window.dwelling := by
  rw [issuedWindow_eq]
  apply dwelling_eq_of_map_eq
  exact pictures_map_adjust handle (fun picture => (number encodeOrder picture).issue)
    Picture.complete (fun _ => rfl) window

theorem Trim.retire (trim : before.Trim depth frames flight) (setting : Setting before after)
    {window : Window B.Image} {recent : List Handle} {gone : List (Picture B.Image)}
    {change : Picture B.Image → Picture B.Image} (advances : Advances change)
    (complete : ∀ picture, (change picture).complete = true)
    (cleared : Retirement.Cleared recent gone (window.adjust handle change) after.window)
    (short : recent.length ≤ maxListReferences) (room : later.length ≤ depth)
    (narrow : window.Narrow) (few : names.length ≤ frames)
    (busy : window.Busy (handle :: (later.map Prod.fst ++ names))) :
    after.Trim depth frames later := by
  have ages := Ages.cleared cleared
  have slim := (narrow.ages (Ages.adjust handle change window advances.held
    fun picture _ => complete picture)).ages ages
  have left := (busy.finish advances.held complete).ages ages
  refine trim.of_setting setting room slim ⟨names, few, left⟩ ?_
  have counted := left.dwelling_le cleared.tidy cleared.swept slim short
  have positive := trim.positive
  rw [List.length_append, List.length_map] at counted
  rw [dwelling]
  omega

theorem Move.trim (move : Move before flight packets after later)
    (trim : before.Trim depth frames flight) : after.Trim depth frames later := by
  have setting := move.steady.toSetting
  cases move with
  | @issue _ _ _ handle _ window _ _ core free picks answers =>
      obtain ⟨narrow, _, dwellings, names, few, busy⟩ := trim.chosen core picks
      have room := trim.capacity ▸ free
      generalize before.scheduler.encodeOrderFor flight.length = encodeOrder at answers
      cases answers with
      | accepted asks answer =>
          have ages := ages_issuedWindow window handle encodeOrder
          have same := (dwelling_issuedWindow window handle encodeOrder).trans dwellings
          refine trim.of_setting setting ?_ (narrow.ages ages) ⟨names, few, ?_⟩ ?_
          · rw [List.length_append, List.length_singleton]
            exact room
          · refine (busy.ages ages).mono ?_
            intro name member
            rw [List.map_append, List.map_singleton]
            simp only [List.mem_cons, List.mem_append, List.not_mem_nil, or_false] at member ⊢
            tauto
          · exact Nat.le_trans (Nat.le_of_eq same) trim.few
  | @refuse _ _ handle _ window _ _ core picks answers =>
      obtain ⟨narrow, short, _, names, few, busy⟩ := trim.chosen core picks
      generalize before.scheduler.encodeOrderFor flight.length = encodeOrder at answers
      cases answers with
      | refused asks answer cleared =>
          have ages := ages_issuedWindow window handle encodeOrder
          exact trim.retire setting advances_lose (fun _ => rfl) cleared short trim.room
            (narrow.ages ages) few (busy.ages ages)
  | deliver core found numbered delivers =>
      obtain ⟨names, few, busy⟩ := trim.busy
      obtain ⟨_, _, arranged⟩ := core.arranged
      have room := Nat.le_of_succ_le trim.room
      cases delivers with
      | failed _ _ _ cleared =>
          exact trim.retire setting advances_lose (fun _ => rfl) cleared arranged.short room
            trim.narrow few busy
      | coded _ _ _ _ cleared =>
          exact trim.retire setting advances_handOver (fun _ => rfl) cleared arranged.short room
            trim.narrow few busy
  | finish core ended issued finishes =>
      cases finishes with
      | retired pictures empty => exact trim.of_empty setting empty

theorem Moves.trim (moves : Moves before flight packets after later)
    (trim : before.Trim depth frames flight) : after.Trim depth frames later := by
  induction moves with
  | none => exact trim
  | next _ move ih => exact move.trim ih

theorem Entry.trim (entry : Entry before after)
    (trim : before.Trim depth frames before.queue.promises) :
    after.Trim depth frames after.queue.promises := by
  have setting := entry.steady.toSetting
  cases entry with
  | nothing => exact trim
  | @frame frame _ image =>
      have fresh := fresh_ofFrame before.scheduler.inputOrder frame
        (before.scheduler.inputOrder == 0 || frame.forceKey) image
      obtain ⟨names, few, busy⟩ := trim.busy
      refine trim.of_setting setting trim.room (narrow_enter trim.narrow fresh)
        ⟨names, few, busy_enter busy fresh⟩ ?_
      exact Nat.le_trans (Nat.le_of_eq (dwelling_enter rfl before.window)) trim.few
  | ending => exact trim.of_window setting rfl

theorem Strides.trim {result : Except EncodeError Step}
    (strides : Strides before result after)
    (trim : before.Trim depth frames before.queue.promises) :
    after.Trim depth frames after.queue.promises := by
  have setting := strides.steady.toSetting
  cases strides with
  | lost loses =>
      cases loses
      exact trim.of_window setting rfl
  | went entry picks _ last => exact (picks.last last).trim (entry.trim trim)

theorem Course.trim (course : Course progress opening accepted packets encoder)
    (trim : opening.Trim depth frames opening.queue.promises) :
    encoder.Trim depth frames encoder.queue.promises := by
  induction course with
  | start => exact trim
  | step _ _ strode ih =>
      cases strode with
      | dead => exact ih
      | alive _ strides => exact strides.trim ih
      | fatal _ strides =>
          exact (strides.trim ih).of_window ⟨rfl, rfl, rfl, rfl, rfl, rfl, rfl, rfl, rfl⟩ rfl
  | accept _ _ _ _ ih => exact ih.of_window ⟨rfl, rfl, rfl, rfl, rfl, rfl, rfl, rfl, rfl⟩ rfl
  | drain _ ih => exact ih.of_window ⟨rfl, rfl, rfl, rfl, rfl, rfl, rfl, rfl, rfl⟩ rfl
  | code _ _ ih => exact ih.of_window ⟨rfl, rfl, rfl, rfl, rfl, rfl, rfl, rfl, rfl⟩ rfl
  | abandon _ _ empty _ ih =>
      exact ih.of_empty ⟨rfl, rfl, rfl, rfl, rfl, rfl, rfl, rfl, rfl⟩ empty
  | progress _ _ ih => exact ih.of_window ⟨rfl, rfl, rfl, rfl, rfl, rfl, rfl, rfl, rfl⟩ rfl

theorem trim_opened {config : Config} {gop : Gop} {mode : BlockingMode} (valid : config.Valid)
    (made : Gop.ofConfig? config (B.capabilities start) = some gop) :
    (opened start gop config mode : Encoder B).Trim config.asyncDepth config.maxBFrames [] where
  capacity := rfl
  groups := (Gop.bounds_of_ofConfig? made).2
  layers := Gop.layers_of_ofConfig? valid made
  positive := valid.asyncDepth_pos
  room := Nat.zero_le _
  narrow _ _ found := by cases found
  busy := ⟨[], Nat.zero_le _, fun _ _ found => by cases found⟩
  few := Nat.zero_le _

/-- However many frames were encoded, and whatever failed on the way, only so many complete pictures
are still there as the pipeline and a group of B-pictures account for. -/
theorem Calls.dwelling_bounded {config : Config} {mode : BlockingMode}
    {trail : List (Call × Except EncodeError Answer)}
    (created : ((create start config mode : Action Unit (Encoder B)) ()).result = .ok opening)
    (calls : Calls progress opening trail encoder) :
    encoder.dwelling ≤ 80 * (config.asyncDepth + config.maxBFrames + 1) := by
  have reachable : Reachable start progress opening := .created config mode created
  have sound := reachable.invariant
  obtain ⟨valid, gop, made, rfl⟩ := create_eq_ok created
  obtain ⟨_, course⟩ := calls.course sound rfl
  exact (course.trim (trim_opened valid made)).few

/-- A stream with four layers, of which two groups were encoded. -/
def hoarding : List (Call × Except EncodeError Answer) × Encoder Backend.simulated.recorded :=
  performAll (List.replicate 24 (.encode {}) ++ List.replicate 12 .receive)
    (onDevice (Device.create .manual none) { maxBFrames := 7, bDepth := 4, asyncDepth := 4 }
      .blocking)

theorem dwelling_bounded_hoarding :
    hoarding.2.dwelling = 8 ∧ hoarding.2.window.size = 18 ∧ hoarding.2.backend.inner.issued.size = 15 ∧
      hoarding.2.dwelling ≤ 80 * (4 + 7 + 1) := by
  have created : ((create (B := Backend.simulated.recorded) { inner := Device.create .manual none }
      { maxBFrames := 7, bDepth := 4, asyncDepth := 4 } .blocking :
        Action Unit (Encoder Backend.simulated.recorded)) ()).result =
      .ok (onDevice (Device.create .manual none)
        { maxBFrames := 7, bDepth := 4, asyncDepth := 4 } .blocking) := rfl
  have calls : Calls Recorded.SameCalls (onDevice (Device.create .manual none)
      { maxBFrames := 7, bDepth := 4, asyncDepth := 4 } .blocking) hoarding.1 hoarding.2 :=
    calls_performAll _ _
  refine ⟨by decide +kernel, by decide +kernel, by decide +kernel, ?_⟩
  exact Calls.dwelling_bounded created calls

end Encoder

end VideoSchedule

import Mathlib.Data.List.Perm.Subperm
import VideoSchedule.Proofs.Arena

/-!
Arenas over time. A client lets pictures in and has them removed, under whatever handles it likes;
the record of what it asked says which handle names which picture. A handle is told from an older
one of its slot by its generation, which is the number of times the slot was vacated, so all this
holds as long as no slot was vacated so often that the generations start again.
-/

namespace VideoSchedule.Arena

variable {ι : Type}

inductive Operation (ι : Type) where
  | enter (picture : Picture ι)
  | remove (handle : Handle)

inductive Event (ι : Type) where
  | entered (handle : Handle) (picture : Picture ι)
  | removed (handle : Handle) (answer : Except EncodeError (Picture ι))

def serve : Operation ι → Arena ι → Event ι × Arena ι
  | .enter picture, arena => (.entered (arena.enter picture).1 picture, (arena.enter picture).2)
  | .remove handle, arena =>
      (.removed handle (remove handle arena).result, (remove handle arena).state)

def serveAll : List (Operation ι) → Arena ι → List (Event ι) × Arena ι
  | [], arena => ([], arena)
  | operation :: rest, arena =>
      let first := serve operation arena
      let last := serveAll rest first.2
      (first.1 :: last.1, last.2)

/-! What a record of events says. -/

def Event.admission? : Event ι → Option (Handle × Picture ι)
  | .entered handle picture => some (handle, picture)
  | .removed _ _ => none

def admissions (events : List (Event ι)) : List (Handle × Picture ι) :=
  events.filterMap Event.admission?

def Event.vacates (index : Nat) : Event ι → Bool
  | .removed handle (.ok _) => handle.index == index
  | _ => false

def vacated (index : Nat) (events : List (Event ι)) : Nat := events.countP (Event.vacates index)

/-- The handle was given for this picture, and its removal was not asked for since. -/
def Resident (events : List (Event ι)) (handle : Handle) (picture : Picture ι) : Prop :=
  ∃ before after, events = before ++ .entered handle picture :: after ∧
    ∀ answer, .removed handle answer ∉ after

variable {events : List (Event ι)} {arena : Arena ι} {handle other : Handle}
  {picture : Picture ι}

theorem vacated_append (index : Nat) (first second : List (Event ι)) :
    vacated index (first ++ second) = vacated index first + vacated index second :=
  List.countP_append

theorem vacated_entered (index : Nat) (events : List (Event ι)) (handle : Handle)
    (picture : Picture ι) : vacated index (events ++ [.entered handle picture]) =
      vacated index events := by
  simp [vacated, Event.vacates]

theorem vacated_refused (index : Nat) (events : List (Event ι)) (handle : Handle)
    (cause : EncodeError) : vacated index (events ++ [.removed handle (.error cause)]) =
      vacated index events := by
  simp [vacated, Event.vacates]

theorem vacated_removed (index : Nat) (events : List (Event ι)) (handle : Handle)
    (picture : Picture ι) : vacated index (events ++ [.removed handle (.ok picture)]) =
      vacated index events + if handle.index = index then 1 else 0 := by
  by_cases same : handle.index = index <;> simp [vacated, Event.vacates, same]

theorem admissions_entered (events : List (Event ι)) (handle : Handle) (picture : Picture ι) :
    admissions (events ++ [.entered handle picture]) =
      admissions events ++ [(handle, picture)] := by
  simp [admissions, Event.admission?]

theorem admissions_removed (events : List (Event ι)) (handle : Handle)
    (answer : Except EncodeError (Picture ι)) :
    admissions (events ++ [.removed handle answer]) = admissions events := by
  simp [admissions, Event.admission?]

theorem resident_concat_iff (event : Event ι) :
    Resident (events ++ [event]) handle picture ↔
      event = .entered handle picture ∨
        Resident events handle picture ∧ ∀ answer, event ≠ .removed handle answer := by
  constructor
  · rintro ⟨before, after, split, unasked⟩
    rcases List.eq_nil_or_concat after with rfl | ⟨rest, last, rfl⟩
    · exact .inl (List.cons.inj (List.append_inj' split rfl).2).1
    · rw [List.concat_eq_append, ← List.cons_append, ← List.append_assoc] at split
      obtain ⟨earlier, same⟩ := List.append_inj' split rfl
      rw [(List.cons.inj same).1]
      refine .inr ⟨⟨before, rest, earlier, fun answer asked => unasked answer ?_⟩, ?_⟩
      · simp [asked]
      · rintro answer rfl
        exact unasked answer (by simp)
  · rintro (rfl | ⟨⟨before, after, rfl, unasked⟩, kept⟩)
    · exact ⟨events, [], rfl, by simp⟩
    · refine ⟨before, after ++ [event], by simp, fun answer asked => ?_⟩
      rcases List.mem_append.mp asked with early | last
      · exact unasked answer early
      · exact kept answer (List.mem_singleton.mp last).symm

theorem resident_removed_iff (answer : Except EncodeError (Picture ι)) :
    Resident (events ++ [.removed other answer]) handle picture ↔
      Resident events handle picture ∧ handle ≠ other := by
  rw [resident_concat_iff]
  constructor
  · rintro (impossible | ⟨resident, kept⟩)
    · cases impossible
    · exact ⟨resident, fun same => kept answer (by rw [same])⟩
  · rintro ⟨resident, different⟩
    refine .inr ⟨resident, fun found same => different ?_⟩
    cases same
    rfl

/-! The slots, the queue, and the record agree with one another. -/

structure Consistent (events : List (Event ι)) (arena : Arena ι) : Prop where
  sound : arena.Sound
  current : ∀ index slot, arena.slots[index]? = some slot →
    slot.generation = vacated index events
  unmade : ∀ index, arena.slots.length ≤ index → vacated index events = 0
  sparing : arena.slots.length ≤ (admissions events).length
  /-- The slot of a picture that left is at a later generation. -/
  outdated : ∀ handle ∈ (admissions events).map Prod.fst, handle ∉ arena.order →
    handle.generation < vacated handle.index events
  distinct : ((admissions events).map Prod.fst).Nodup
  ordered : arena.entries.Sublist (admissions events)
  entries_iff : ∀ handle picture,
    (handle, picture) ∈ arena.entries ↔ Resident events handle picture

theorem consistent_empty : Consistent [] ({} : Arena ι) where
  sound := sound_empty
  current := by simp
  unmade := by simp [vacated]
  sparing := Nat.zero_le _
  outdated := by simp [admissions]
  distinct := by simp [admissions]
  ordered := List.nil_sublist _
  entries_iff := by simp [Resident, entries]

namespace Consistent

theorem generation_nextHandle (consistent : Consistent events arena) :
    arena.nextHandle.generation = vacated arena.nextHandle.index events := by
  cases waiting : arena.vacant with
  | nil => simp [nextHandle, waiting, consistent.unmade arena.slots.length (Nat.le_refl _)]
  | cons index rest =>
      obtain ⟨slot, taken, _⟩ := (consistent.sound.mem_vacant index).mp (by simp [waiting])
      simp [nextHandle, waiting, taken, consistent.current index slot taken]

theorem nextHandle_new (consistent : Consistent events arena) :
    arena.nextHandle ∉ (admissions events).map Prod.fst := by
  intro given
  have late := consistent.outdated _ given consistent.sound.nextHandle_not_mem
  rw [← consistent.generation_nextHandle] at late
  exact Nat.lt_irrefl _ late

theorem enter (consistent : Consistent events arena) (picture : Picture ι) :
    Consistent (events ++ [.entered arena.nextHandle picture]) (arena.enter picture).2 := by
  constructor
  case sound => exact consistent.sound.enter picture
  case current =>
    intro index slot taken
    rw [vacated_entered]
    cases waiting : arena.vacant with
    | nil =>
        simp only [Arena.enter, waiting, List.getElem?_append] at taken
        split at taken
        next => exact consistent.current index slot taken
        next beyond =>
          rw [List.mem_singleton.mp (List.mem_of_getElem? taken)]
          exact (consistent.unmade index (Nat.le_of_not_lt beyond)).symm
    | cons first rest =>
        -- The slot that is taken keeps its generation.
        simp only [Arena.enter, waiting, List.getElem?_modify, Option.map_eq_map,
          Option.map_eq_some_iff] at taken
        obtain ⟨old, takenBefore, rfl⟩ := taken
        have known := consistent.current index old takenBefore
        split <;> exact known
  case unmade =>
    intro index beyond
    rw [vacated_entered]
    refine consistent.unmade index (Nat.le_trans ?_ beyond)
    simp only [Arena.enter]
    split <;> simp
  case sparing =>
    have before := consistent.sparing
    rw [admissions_entered, List.length_append]
    simp only [Arena.enter]
    split
    · rw [List.length_append]
      exact Nat.add_le_add_right before 1
    · rw [List.length_modify]
      exact Nat.le_succ_of_le before
  case outdated =>
    intro handle given gone
    simp only [Arena.enter, List.mem_append, List.mem_singleton, not_or] at gone
    rw [admissions_entered, List.map_append, List.mem_append] at given
    rw [vacated_entered]
    rcases given with early | last
    · exact consistent.outdated handle early gone.1
    · exact absurd (by simpa using last) gone.2
  case distinct =>
    rw [admissions_entered, List.map_append, List.nodup_append]
    refine ⟨consistent.distinct, by simp, fun handle given other last same => ?_⟩
    rw [same, List.mem_singleton.mp last] at given
    exact consistent.nextHandle_new given
  case ordered =>
    rw [admissions_entered, consistent.sound.entries_enter]
    exact consistent.ordered.append (List.Sublist.refl _)
  case entries_iff =>
    intro handle found
    rw [resident_concat_iff, ← consistent.entries_iff, consistent.sound.entries_enter,
      List.mem_append, List.mem_singleton, Prod.mk.injEq, Event.entered.injEq]
    constructor
    · rintro (early | ⟨same, rfl⟩)
      · exact .inr ⟨early, by simp⟩
      · exact .inl ⟨same.symm, rfl⟩
    · rintro (⟨same, rfl⟩ | ⟨early, _⟩)
      · exact .inr ⟨same.symm, rfl⟩
      · exact .inl early

theorem remove (consistent : Consistent events arena)
    (found : arena.find? handle = some picture)
    (few : vacated handle.index (events ++ [.removed handle (.ok picture)]) < 0x100000000) :
    Consistent (events ++ [.removed handle (.ok picture)]) (arena.vacate handle) := by
  have sound := consistent.sound
  have live := sound.mem_order_of_find? found
  have taken := find?_eq_some_iff.mp found
  have age := consistent.current handle.index _ taken
  have left : (arena.vacate handle).entries = arena.entries.filter fun entry =>
      entry.1 != handle := by
    rw [← sound.entries_remove, remove_found sound found]
  rw [vacated_removed, if_pos rfl] at few
  constructor
  case sound => exact sound.vacate live
  case current =>
    intro index slot takenAfter
    rw [vacated_removed]
    simp only [Arena.vacate, List.getElem?_modify, Option.map_eq_map,
      Option.map_eq_some_iff] at takenAfter
    obtain ⟨old, takenBefore, rfl⟩ := takenAfter
    have known := consistent.current index old takenBefore
    by_cases here : handle.index = index
    · rw [if_pos here, if_pos here, Slot.vacate, known]
      rw [here] at few
      exact Nat.mod_eq_of_lt few
    · rw [if_neg here, if_neg here]
      exact known
  case unmade =>
    intro index beyond
    simp only [Arena.vacate, List.length_modify] at beyond
    obtain ⟨made, _⟩ := List.getElem?_eq_some_iff.mp taken
    rw [vacated_removed, if_neg (by omega)]
    exact consistent.unmade index beyond
  case sparing =>
    rw [admissions_removed, Arena.vacate, List.length_modify]
    exact consistent.sparing
  case outdated =>
    intro other given gone
    rw [admissions_removed] at given
    rw [vacated_removed]
    by_cases same : other = handle
    · rw [same, if_pos rfl, ← age]
      exact Nat.lt_succ_self _
    · have early : other ∉ arena.order := fun stays =>
        gone ((List.mem_erase_of_ne same).mpr stays)
      have late := consistent.outdated other given early
      omega
  case distinct =>
    rw [admissions_removed]
    exact consistent.distinct
  case ordered =>
    rw [admissions_removed, left]
    exact List.filter_sublist.trans consistent.ordered
  case entries_iff =>
    intro other kept
    rw [resident_removed_iff, ← consistent.entries_iff, left]
    simp

theorem find?_iff (consistent : Consistent events arena) :
    arena.find? handle = some picture ↔ Resident events handle picture := by
  rw [← consistent.entries_iff, consistent.sound.mem_entries_iff]

theorem refuse (consistent : Consistent events arena) (missing : arena.find? handle = none)
    (cause : EncodeError) : Consistent (events ++ [.removed handle (.error cause)]) arena := by
  constructor
  case sound => exact consistent.sound
  case current => simpa only [vacated_refused] using consistent.current
  case unmade => simpa only [vacated_refused] using consistent.unmade
  case sparing => simpa only [admissions_removed] using consistent.sparing
  case outdated => simpa only [vacated_refused, admissions_removed] using consistent.outdated
  case distinct => simpa only [admissions_removed] using consistent.distinct
  case ordered => simpa only [admissions_removed] using consistent.ordered
  case entries_iff =>
    intro other picture
    rw [resident_removed_iff, ← consistent.entries_iff, iff_self_and]
    rintro member rfl
    rw [consistent.sound.mem_entries_iff.mp member] at missing
    cases missing

theorem serve (consistent : Consistent events arena) (operation : Operation ι)
    (few : ∀ index, vacated index (events ++ [(serve operation arena).1]) < 0x100000000) :
    Consistent (events ++ [(serve operation arena).1]) (serve operation arena).2 := by
  cases operation with
  | enter picture => exact consistent.enter picture
  | remove handle =>
      cases looked : arena.find? handle with
      | none =>
          simp only [Arena.serve, remove_missing consistent.sound looked]
          exact consistent.refuse looked _
      | some picture =>
          simp only [Arena.serve, remove_found consistent.sound looked] at few ⊢
          exact consistent.remove looked (few handle.index)

theorem serveAll (operations : List (Operation ι)) (consistent : Consistent events arena)
    (few : ∀ index, vacated index (events ++ (serveAll operations arena).1) < 0x100000000) :
    Consistent (events ++ (serveAll operations arena).1) (serveAll operations arena).2 := by
  induction operations generalizing events arena with
  | nil => simpa [Arena.serveAll] using consistent
  | cons operation rest ih =>
      simp only [Arena.serveAll] at few ⊢
      rw [List.append_cons]
      have fewAfter : ∀ index, vacated index (events ++ [(Arena.serve operation arena).1] ++
          (Arena.serveAll rest (Arena.serve operation arena).2).1) < 0x100000000 := by
        simpa using few
      refine ih (consistent.serve operation fun index => ?_) fewAfter
      have total := fewAfter index
      rw [vacated_append] at total
      omega

end Consistent

theorem Sound.slots_perm (sound : arena.Sound) :
    (arena.order.map Handle.index ++ arena.vacant).Perm (List.range arena.slots.length) := by
  have distinct : (arena.order.map Handle.index ++ arena.vacant).Nodup := by
    rw [List.nodup_append]
    refine ⟨sound.order_nodup.map_on fun first live second stays same =>
      sound.index_inj live stays same, sound.vacant_nodup, ?_⟩
    rintro index taken other waiting rfl
    obtain ⟨handle, live, rfl⟩ := List.mem_map.mp taken
    exact sound.index_not_mem_vacant live waiting
  rw [List.perm_ext_iff_of_nodup distinct List.nodup_range]
  intro index
  rw [List.mem_append, sound.mem_vacant, List.mem_map, List.mem_range]
  constructor
  · rintro (⟨handle, live, rfl⟩ | ⟨slot, taken, _⟩)
    · obtain ⟨picture, found⟩ := sound.exists_of_mem_order live
      exact (List.getElem?_eq_some_iff.mp (find?_eq_some_iff.mp found)).1
    · exact (List.getElem?_eq_some_iff.mp taken).1
  · intro made
    have taken := List.getElem?_eq_getElem made
    cases held : arena.slots[index].picture with
    | none => exact .inr ⟨_, taken, held⟩
    | some picture =>
        have found : arena.find? ⟨index, arena.slots[index].generation⟩ = some picture := by
          rw [find?_eq_some_iff, taken, ← held]
        exact .inl ⟨_, sound.mem_order_of_find? found, rfl⟩

/-- An arena whose record these events are. -/
structure Remembers (events : List (Event ι)) (arena : Arena ι) : Prop where
  /-- No handle is given twice. -/
  distinct : ((admissions events).map Prod.fst).Nodup
  /-- Every slot either belongs to one handle of the queue or is listed once as vacant; -/
  slots : (arena.order.map Handle.index ++ arena.vacant).Perm (List.range arena.slots.length)
  /-- there are no more of them than pictures that came in; -/
  sparing : arena.slots.length ≤ (admissions events).length
  /-- in the first case a slot has a picture, at the generation of the handle, -/
  taken : ∀ handle, handle ∈ arena.order ↔
    ∃ picture, arena.slots[handle.index]? = some ⟨handle.generation, some picture⟩
  /-- in the second one it has none; -/
  waiting : ∀ index, index ∈ arena.vacant ↔
    ∃ slot, arena.slots[index]? = some slot ∧ slot.picture = none
  /-- and its generation counts how often it was vacated. -/
  generations : ∀ index slot, arena.slots[index]? = some slot →
    slot.generation = vacated index events
  find?_iff : ∀ handle picture,
    arena.find? handle = some picture ↔ Resident events handle picture
  contains_iff : ∀ handle,
    arena.contains handle = true ↔ ∃ picture, Resident events handle picture
  fetches : ∀ handle picture, Resident events handle picture →
    fetch handle arena = ⟨.ok picture, arena, []⟩
  alters : ∀ handle picture, Resident events handle picture → ∀ change,
    alter handle change arena = ⟨.ok (), arena.adjust handle change, []⟩ ∧
      (arena.adjust handle change).order = arena.order ∧
      ∀ other, (arena.adjust handle change).find? other =
        if other = handle then some (change picture) else arena.find? other
  removes : ∀ handle picture, Resident events handle picture →
    remove handle arena = ⟨.ok picture, arena.vacate handle, []⟩ ∧
      (arena.vacate handle).entries = arena.entries.filter (fun entry => entry.1 != handle) ∧
      ∀ other, (arena.vacate handle).find? other =
        if other = handle then none else arena.find? other
  /-- Any other handle is an error of bookkeeping, and nothing changes. -/
  refuses : ∀ handle, (∀ picture, ¬Resident events handle picture) →
    fetch handle arena = ⟨.error .invalidReferenceState, arena, []⟩ ∧
      (∀ change, alter handle change arena = ⟨.error .invalidReferenceState, arena, []⟩) ∧
      remove handle arena = ⟨.error .invalidReferenceState, arena, []⟩
  /-- The arena lists the pictures that are left, in the order in which they were entered, -/
  ordered : arena.entries.Sublist (admissions events)
  /-- each of them, -/
  entries_iff : ∀ handle picture,
    (handle, picture) ∈ arena.entries ↔ Resident events handle picture
  /-- and each once; -/
  once : arena.order.Nodup
  keys : arena.entries.map Prod.fst = arena.order
  /-- going through the slots is the same as looking up in that list. -/
  lookups : ∀ handle, arena.find? handle = arena.entries.lookup handle
  size_eq : arena.size = arena.entries.length
  head?_eq : arena.head? = arena.entries.head?.map Prod.fst
  tail?_eq : arena.tail? = arena.entries.getLast?.map Prod.fst

theorem serveAll_remembers (operations : List (Operation ι))
    (few : ∀ index, vacated index (serveAll operations {}).1 < 0x100000000) :
    Remembers (serveAll operations {}).1 (serveAll operations {}).2 := by
  have consistent := consistent_empty.serveAll operations (by simpa using few)
  rw [List.nil_append] at consistent
  generalize (serveAll operations {}).1 = events at consistent
  generalize (serveAll operations {}).2 = arena at consistent
  have sound := consistent.sound
  have keys := sound.entries_keys
  have missing : ∀ handle, (∀ picture, ¬Resident events handle picture) →
      arena.find? handle = none := by
    intro handle absent
    rw [Option.eq_none_iff_forall_ne_some]
    exact fun picture found => absent picture (consistent.find?_iff.mp found)
  constructor
  case distinct => exact consistent.distinct
  case slots => exact sound.slots_perm
  case sparing => exact consistent.sparing
  case taken =>
    intro handle
    rw [sound.mem_order, Option.isSome_iff_exists]
    exact exists_congr fun _ => find?_eq_some_iff
  case waiting => exact sound.mem_vacant
  case generations => exact consistent.current
  case find?_iff => exact fun handle picture => consistent.find?_iff
  case contains_iff =>
    intro handle
    simp only [contains, Option.isSome_iff_exists, consistent.find?_iff]
  case fetches =>
    exact fun handle picture resident => fetch_found (consistent.find?_iff.mpr resident)
  case alters =>
    intro handle picture resident change
    have found := consistent.find?_iff.mpr resident
    refine ⟨alter_found found change, rfl, fun other => ?_⟩
    rw [find?_adjust]
    split
    next same => rw [same, found, Option.map_some]
    next => rfl
  case removes =>
    intro handle picture resident
    have removed := remove_found sound (consistent.find?_iff.mpr resident)
    have left : (remove handle arena).state = arena.vacate handle := by rw [removed]
    refine ⟨removed, ?_⟩
    rw [← left]
    exact ⟨sound.entries_remove handle, sound.find?_remove handle⟩
  case refuses =>
    intro handle absent
    exact ⟨fetch_missing (missing handle absent), alter_missing (missing handle absent),
      remove_missing sound (missing handle absent)⟩
  case ordered => exact consistent.ordered
  case entries_iff => exact consistent.entries_iff
  case once => exact sound.order_nodup
  case keys => exact keys
  case lookups => exact sound.find?_eq_lookup
  case size_eq => rw [size, ← keys, List.length_map]
  case head?_eq => rw [head?, ← keys, List.head?_map]
  case tail?_eq => rw [tail?, ← keys, List.getLast?_map]

/-- A slot is vacated and taken again; its old handle and one that was never given are refused. -/
def churn : List (Operation Unit) :=
  [.enter (Picture.ofFrame 0 {} true ()), .enter (Picture.ofFrame 1 {} false ()),
    .remove ⟨0, 0⟩, .enter (Picture.ofFrame 2 {} false ()), .remove ⟨0, 0⟩, .remove ⟨7, 3⟩]

theorem serveAll_remembers_churn :
    (∀ index, vacated index (serveAll churn {}).1 < 0x100000000) ∧
      (admissions (serveAll churn {}).1).map Prod.fst = [⟨0, 0⟩, ⟨1, 0⟩, ⟨0, 1⟩] ∧
      (serveAll churn {}).2.order = [⟨1, 0⟩, ⟨0, 1⟩] ∧
      Remembers (serveAll churn {}).1 (serveAll churn {}).2 := by
  have few : ∀ index, vacated index (serveAll churn {}).1 < 0x100000000 := fun index =>
    Nat.lt_of_le_of_lt List.countP_le_length (by decide)
  exact ⟨few, by decide, by decide, serveAll_remembers churn few⟩

end VideoSchedule.Arena

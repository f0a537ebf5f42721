import VideoSchedule.Action
import VideoSchedule.Picture

/-!
The store of the pictures of a session. Pictures lie in slots, and a slot that a picture has left is
taken again under its next generation, so that an old handle does not name the new picture. A queue
of handles says in which order the pictures came in.

Slots, vacant slots and the queue have to agree: this is `Arena.Sound`, which the empty arena has
and every operation keeps.
-/

namespace VideoSchedule

variable {ι : Type}

structure Slot (ι : Type) where
  generation : Nat := 0
  picture : Option (Picture ι)
deriving DecidableEq, Repr

/-- Takes the picture out. Generations are words of 32 bits. -/
def Slot.vacate (slot : Slot ι) : Slot ι where
  generation := (slot.generation + 1) % 0x100000000
  picture := none

structure Arena (ι : Type) where
  slots : List (Slot ι) := []
  /-- Places of the slots without a picture, the next one to be taken first. -/
  vacant : List Nat := []
  order : List Handle := []
deriving DecidableEq, Repr

namespace Arena

def slot? (arena : Arena ι) (handle : Handle) : Option (Slot ι) :=
  arena.slots[handle.index]?.filter fun slot => slot.generation == handle.generation

def find? (arena : Arena ι) (handle : Handle) : Option (Picture ι) :=
  (arena.slot? handle).bind Slot.picture

def contains (arena : Arena ι) (handle : Handle) : Bool := (arena.find? handle).isSome

/-- The pictures with their handles, in the order of the queue. -/
def entries (arena : Arena ι) : List (Handle × Picture ι) :=
  arena.order.filterMap fun handle => (arena.find? handle).map (handle, ·)

def size (arena : Arena ι) : Nat := arena.order.length

def isEmpty (arena : Arena ι) : Bool := arena.order.isEmpty

def head? (arena : Arena ι) : Option Handle := arena.order.head?

def tail? (arena : Arena ι) : Option Handle := arena.order.getLast?

def nextHandle (arena : Arena ι) : Handle :=
  match arena.vacant with
  | [] => ⟨arena.slots.length, 0⟩
  | index :: _ => ⟨index, (arena.slots[index]?.map Slot.generation).getD 0⟩

/-- A picture goes into the slot that was vacated last, or else into a new one. -/
def enter (picture : Picture ι) (arena : Arena ι) : Handle × Arena ι :=
  (arena.nextHandle,
    { slots :=
        match arena.vacant with
        | [] => arena.slots ++ [{ picture := some picture }]
        | index :: _ => arena.slots.modify index fun slot => { slot with picture := some picture }
      vacant := arena.vacant.tail
      order := arena.order ++ [arena.nextHandle] })

def adjust (handle : Handle) (change : Picture ι → Picture ι) (arena : Arena ι) : Arena ι :=
  { arena with
    slots := arena.slots.modify handle.index fun slot =>
      if slot.generation = handle.generation then
        { slot with picture := slot.picture.map change }
      else slot }

def vacate (handle : Handle) (arena : Arena ι) : Arena ι where
  slots := arena.slots.modify handle.index Slot.vacate
  vacant := handle.index :: arena.vacant
  order := arena.order.erase handle

/-- The picture under a handle; a handle that names no picture is an error of bookkeeping. -/
def fetch (handle : Handle) : Action (Arena ι) (Picture ι) := do
  Action.require ((← Action.get).find? handle) .invalidReferenceState

def alter (handle : Handle) (change : Picture ι → Picture ι) : Action (Arena ι) Unit := do
  let _ ← fetch handle
  Action.modify (adjust handle change)

def remove (handle : Handle) : Action (Arena ι) (Picture ι) := do
  let arena ← Action.get
  let _ ← Action.require (arena.order.idxOf? handle) .invalidReferenceState
  let slot ← Action.require (arena.slot? handle) .invalidReferenceState
  let picture ← Action.require slot.picture .invalidReferenceState
  Action.modify (vacate handle)
  return picture

/-! Looking up. -/

variable {arena : Arena ι} {handle other : Handle} {picture : Picture ι}

theorem find?_eq_some_iff : arena.find? handle = some picture ↔
    arena.slots[handle.index]? = some ⟨handle.generation, some picture⟩ := by
  simp only [find?, slot?, Option.bind_eq_some_iff, Option.filter_eq_some_iff, beq_iff_eq]
  constructor
  · rintro ⟨⟨generation, found⟩, ⟨taken, same⟩, held⟩
    cases same
    cases held
    exact taken
  · intro taken
    exact ⟨_, ⟨taken, rfl⟩, rfl⟩

theorem find?_adjust (handle other : Handle) (change : Picture ι → Picture ι)
    (arena : Arena ι) :
    (arena.adjust handle change).find? other =
      if other = handle then (arena.find? other).map change else arena.find? other := by
  obtain ⟨index, generation⟩ := handle
  obtain ⟨place, age⟩ := other
  simp only [find?, slot?, adjust, List.getElem?_modify, Handle.mk.injEq]
  cases arena.slots[place]? with
  | none => simp
  | some slot => by_cases here : place = index <;> by_cases now : slot.generation = age <;> grind

theorem find?_vacate (handle other : Handle) (arena : Arena ι) :
    (arena.vacate handle).find? other =
      if other.index = handle.index then none else arena.find? other := by
  simp only [find?, slot?, vacate, List.getElem?_modify]
  cases arena.slots[other.index]? with
  | none => simp
  | some slot =>
      by_cases here : other.index = handle.index
      · simp [here, Slot.vacate, Option.filter]
      · simp [here, Ne.symm here]

theorem fetch_found (found : arena.find? handle = some picture) :
    fetch handle arena = ⟨.ok picture, arena, []⟩ := by
  simp [fetch, Action.bind_run, Action.bind, Action.get, Action.require, found]

theorem fetch_missing (missing : arena.find? handle = none) :
    fetch handle arena = ⟨.error .invalidReferenceState, arena, []⟩ := by
  simp [fetch, Action.bind_run, Action.bind, Action.get, Action.require, missing]

theorem alter_found (found : arena.find? handle = some picture)
    (change : Picture ι → Picture ι) :
    alter handle change arena = ⟨.ok (), arena.adjust handle change, []⟩ := by
  simp [alter, Action.bind_run, Action.bind, Action.modify, fetch_found found]

theorem alter_missing (missing : arena.find? handle = none) (change : Picture ι → Picture ι) :
    alter handle change arena = ⟨.error .invalidReferenceState, arena, []⟩ := by
  simp [alter, Action.bind_run, Action.bind, fetch_missing missing]

/-- The queue has the handles that name a picture, and the vacant places are the slots without one,
all of them once. -/
structure Sound (arena : Arena ι) : Prop where
  mem_order : ∀ handle, handle ∈ arena.order ↔ (arena.find? handle).isSome = true
  order_nodup : arena.order.Nodup
  mem_vacant : ∀ index, index ∈ arena.vacant ↔
    ∃ slot, arena.slots[index]? = some slot ∧ slot.picture = none
  vacant_nodup : arena.vacant.Nodup

theorem sound_empty : Sound ({} : Arena ι) := by
  constructor <;> simp [find?, slot?]

namespace Sound

theorem mem_order_of_find? (sound : arena.Sound) (found : arena.find? handle = some picture) :
    handle ∈ arena.order := by
  rw [sound.mem_order, found, Option.isSome_some]

theorem exists_of_mem_order (sound : arena.Sound) (live : handle ∈ arena.order) :
    ∃ picture, arena.find? handle = some picture :=
  Option.isSome_iff_exists.mp ((sound.mem_order handle).mp live)

theorem find?_eq_none (sound : arena.Sound) (gone : handle ∉ arena.order) :
    arena.find? handle = none := by
  rwa [sound.mem_order, Bool.not_eq_true, Option.isSome_eq_false_iff,
    Option.isNone_iff_eq_none] at gone

theorem index_inj (sound : arena.Sound) (first : handle ∈ arena.order)
    (second : other ∈ arena.order) (same : handle.index = other.index) : handle = other := by
  obtain ⟨picture, found⟩ := sound.exists_of_mem_order first
  obtain ⟨again, foundOther⟩ := sound.exists_of_mem_order second
  rw [find?_eq_some_iff] at found foundOther
  rw [same, foundOther, Option.some.injEq, Slot.mk.injEq] at found
  obtain ⟨index, generation⟩ := handle
  obtain ⟨place, age⟩ := other
  exact Handle.mk.injEq .. ▸ ⟨same, found.1.symm⟩

theorem index_not_mem_vacant (sound : arena.Sound) (live : handle ∈ arena.order) :
    handle.index ∉ arena.vacant := by
  obtain ⟨picture, found⟩ := sound.exists_of_mem_order live
  rw [find?_eq_some_iff] at found
  rw [sound.mem_vacant, found]
  simp

theorem find?_of_index_mem_vacant (sound : arena.Sound) (waiting : handle.index ∈ arena.vacant) :
    arena.find? handle = none :=
  sound.find?_eq_none fun live => sound.index_not_mem_vacant live waiting

theorem find?_nextHandle (sound : arena.Sound) : arena.find? arena.nextHandle = none := by
  cases waiting : arena.vacant with
  | nil => simp [find?, slot?, nextHandle, waiting]
  | cons index rest =>
      refine sound.find?_of_index_mem_vacant ?_
      simp [nextHandle, waiting]

theorem nextHandle_not_mem (sound : arena.Sound) : arena.nextHandle ∉ arena.order := by
  rw [sound.mem_order, sound.find?_nextHandle]
  simp

theorem find?_enter (sound : arena.Sound) (picture : Picture ι) (other : Handle) :
    (arena.enter picture).2.find? other =
      if other = arena.nextHandle then some picture else arena.find? other := by
  obtain ⟨place, age⟩ := other
  cases waiting : arena.vacant with
  | nil =>
      simp only [find?, slot?, enter, nextHandle, waiting, List.getElem?_append, Handle.mk.injEq]
      grind
  | cons index rest =>
      obtain ⟨slot, taken, empty⟩ := (sound.mem_vacant index).mp (by simp [waiting])
      simp only [find?, slot?, enter, nextHandle, waiting, List.getElem?_modify, Handle.mk.injEq]
      by_cases here : place = index
      · subst here
        by_cases now : slot.generation = age
        · simp [taken, now, Option.filter_some]
        · simp [taken, now, Ne.symm now, Option.filter_some]
      · simp [here, Ne.symm here]

theorem enter (sound : arena.Sound) (picture : Picture ι) : (arena.enter picture).2.Sound where
  mem_order := by
    intro handle
    rw [sound.find?_enter]
    simp only [Arena.enter, List.mem_append, List.mem_singleton, sound.mem_order]
    split
    next same => simp [same]
    next different => simp [different]
  order_nodup := by
    rw [Arena.enter, List.nodup_append]
    refine ⟨sound.order_nodup, by simp, fun handle live other last same => ?_⟩
    rw [same, List.mem_singleton.mp last] at live
    exact sound.nextHandle_not_mem live
  mem_vacant := by
    intro place
    have known := sound.mem_vacant
    have apart := sound.vacant_nodup
    cases waiting : arena.vacant with
    | nil =>
        simp only [waiting, List.not_mem_nil, false_iff] at known
        simp only [Arena.enter, waiting, List.tail_nil, List.not_mem_nil, false_iff,
          List.getElem?_append]
        grind
    | cons index rest =>
        rw [waiting, List.nodup_cons] at apart
        have other := known place
        simp only [Arena.enter, waiting, List.tail_cons, List.mem_cons,
          List.getElem?_modify] at other ⊢
        by_cases here : place = index
        · simp [here, apart.1]
        · simp [Ne.symm here, ← other, here]
  vacant_nodup := sound.vacant_nodup.tail

theorem adjust (sound : arena.Sound) (handle : Handle) (change : Picture ι → Picture ι) :
    (arena.adjust handle change).Sound where
  mem_order := by
    intro other
    rw [find?_adjust]
    simp only [Arena.adjust, sound.mem_order]
    split <;> simp
  order_nodup := sound.order_nodup
  mem_vacant := by
    intro index
    simp only [Arena.adjust, sound.mem_vacant, List.getElem?_modify]
    cases arena.slots[index]? with
    | none => simp
    | some slot =>
        by_cases here : handle.index = index <;> by_cases now : slot.generation = handle.generation <;>
          simp [here, now]
  vacant_nodup := sound.vacant_nodup

theorem vacate (sound : arena.Sound) (live : handle ∈ arena.order) :
    (arena.vacate handle).Sound where
  mem_order := by
    intro other
    rw [find?_vacate]
    simp only [Arena.vacate, sound.order_nodup.mem_erase_iff]
    by_cases here : other.index = handle.index
    · rw [if_pos here]
      simp only [Option.isSome_none, Bool.false_eq_true, iff_false, not_and]
      exact fun different stays => different (sound.index_inj stays live here)
    · rw [if_neg here, sound.mem_order]
      have different : other ≠ handle := fun same => here (same ▸ rfl)
      simp [different]
  order_nodup := sound.order_nodup.erase handle
  mem_vacant := by
    intro index
    obtain ⟨picture, found⟩ := sound.exists_of_mem_order live
    rw [find?_eq_some_iff] at found
    simp only [Arena.vacate, List.mem_cons, sound.mem_vacant, List.getElem?_modify]
    by_cases here : index = handle.index
    · simp [here, found, Slot.vacate]
    · simp [here, Ne.symm here]
  vacant_nodup := List.nodup_cons.mpr ⟨sound.index_not_mem_vacant live, sound.vacant_nodup⟩

end Sound

theorem remove_found (sound : arena.Sound) (found : arena.find? handle = some picture) :
    remove handle arena = ⟨.ok picture, arena.vacate handle, []⟩ := by
  obtain ⟨position, place⟩ := Option.isSome_iff_exists.mp
    (List.isSome_idxOf?.mpr (sound.mem_order_of_find? found))
  obtain ⟨slot, taken, held⟩ := Option.bind_eq_some_iff.mp found
  simp [remove, Action.bind_run, Action.bind, Action.get, Action.require, Action.modify, place,
    taken, held, Action.pure_run, -bind_pure_comp]

theorem remove_missing (sound : arena.Sound) (missing : arena.find? handle = none) :
    remove handle arena = ⟨.error .invalidReferenceState, arena, []⟩ := by
  have gone : handle ∉ arena.order := by
    rw [sound.mem_order, missing]
    simp
  simp [remove, Action.bind_run, Action.bind, Action.get, Action.require,
    List.idxOf?_eq_none_iff.mpr gone]

theorem Sound.fetch (sound : arena.Sound) (handle : Handle) : (fetch handle arena).state.Sound :=
  sound

theorem Sound.alter (sound : arena.Sound) (handle : Handle) (change : Picture ι → Picture ι) :
    (alter handle change arena).state.Sound := by
  cases looked : arena.find? handle with
  | none =>
      rw [alter_missing looked]
      exact sound
  | some picture =>
      rw [alter_found looked]
      exact sound.adjust handle change

theorem Sound.remove (sound : arena.Sound) (handle : Handle) :
    (remove handle arena).state.Sound := by
  cases looked : arena.find? handle with
  | none =>
      rw [remove_missing sound looked]
      exact sound
  | some picture =>
      rw [remove_found sound looked]
      exact sound.vacate (sound.mem_order_of_find? looked)

theorem Sound.order_remove (sound : arena.Sound) (handle : Handle) :
    (Arena.remove handle arena).state.order = arena.order.filter (· != handle) := by
  rw [← sound.order_nodup.erase_eq_filter]
  cases looked : arena.find? handle with
  | none =>
      rw [remove_missing sound looked, List.erase_of_not_mem]
      rw [sound.mem_order, looked]
      simp
  | some picture => rw [remove_found sound looked, Arena.vacate]

theorem Sound.find?_remove (sound : arena.Sound) (handle other : Handle) :
    (Arena.remove handle arena).state.find? other =
      if other = handle then none else arena.find? other := by
  cases looked : arena.find? handle with
  | none =>
      rw [remove_missing sound looked]
      split
      next same => rw [same, looked]
      next => rfl
  | some picture =>
      have live := sound.mem_order_of_find? looked
      rw [remove_found sound looked, find?_vacate]
      by_cases same : other = handle
      · simp [same]
      · rw [if_neg same]
        split
        next here =>
          exact (sound.find?_eq_none fun stays => same (sound.index_inj stays live here)).symm
        next => rfl

end Arena

end VideoSchedule

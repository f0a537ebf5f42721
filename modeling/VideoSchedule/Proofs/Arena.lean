import Mathlib.Data.List.Nodup
import VideoSchedule.Arena

/-!
Arenas as keyed lists. The entries of a sound arena are an association list without repeated keys,
and every operation of the arena is the plain operation on that list.
-/

namespace VideoSchedule

theorem lookup_of_mem {κ β : Type} [BEq κ] [LawfulBEq κ] {entries : List (κ × β)} {key : κ}
    {value : β} (distinct : (entries.map Prod.fst).Nodup) (member : (key, value) ∈ entries) :
    entries.lookup key = some value := by
  induction entries with
  | nil => cases member
  | cons entry rest ih =>
      obtain ⟨first, found⟩ := entry
      rw [List.map_cons, List.nodup_cons] at distinct
      rcases List.mem_cons.mp member with same | later
      · cases same
        simp
      · have different : key ≠ first := by
          rintro rfl
          exact distinct.1 (List.mem_map.mpr ⟨_, later, rfl⟩)
        rw [List.lookup_cons, beq_eq_false_iff_ne.mpr different]
        exact ih distinct.2 later

namespace Arena

variable {ι : Type} {arena : Arena ι} {handle : Handle} {picture : Picture ι}

def each (change : Handle → Picture ι → Picture ι) (arena : Arena ι) : Arena ι :=
  { arena with
    slots := arena.slots.mapIdx fun index slot =>
      { slot with picture := slot.picture.map (change ⟨index, slot.generation⟩) } }

theorem find?_each (change : Handle → Picture ι → Picture ι) (arena : Arena ι)
    (handle : Handle) : (arena.each change).find? handle =
      (arena.find? handle).map (change handle) := by
  obtain ⟨index, generation⟩ := handle
  simp only [find?, slot?, each, List.getElem?_mapIdx]
  cases arena.slots[index]? with
  | none => rfl
  | some slot => by_cases now : slot.generation = generation <;> simp [Option.filter_some, now]

theorem adjust_eq_each (handle : Handle) (change : Picture ι → Picture ι) (arena : Arena ι) :
    arena.adjust handle change =
      arena.each fun other picture => if other = handle then change picture else picture := by
  obtain ⟨index, generation⟩ := handle
  simp only [adjust, each, mk.injEq, and_self, and_true]
  refine List.ext_getElem? fun place => ?_
  rw [List.getElem?_modify, List.getElem?_mapIdx]
  cases arena.slots[place]? with
  | none => rfl
  | some slot =>
      obtain ⟨age, held⟩ := slot
      by_cases here : index = place
      · by_cases now : age = generation <;> simp [here, now]
      · simp [here, Ne.symm here]

theorem each_each (first second : Handle → Picture ι → Picture ι) (arena : Arena ι) :
    (arena.each first).each second =
      arena.each fun handle picture => second handle (first handle picture) := by
  simp [each, List.mapIdx_mapIdx, Function.comp_def]

theorem each_congr {first second : Handle → Picture ι → Picture ι}
    (same : ∀ handle picture, arena.find? handle = some picture →
      first handle picture = second handle picture) : arena.each first = arena.each second := by
  simp only [each, mk.injEq, and_self, and_true]
  refine List.ext_getElem? fun index => ?_
  rw [List.getElem?_mapIdx, List.getElem?_mapIdx]
  cases taken : arena.slots[index]? with
  | none => rfl
  | some slot =>
      obtain ⟨generation, _ | picture⟩ := slot
      · rfl
      · simp [same ⟨index, generation⟩ picture (find?_eq_some_iff.mpr taken)]

theorem each_id (arena : Arena ι) : arena.each (fun _ picture => picture) = arena := by
  have same : arena.slots.mapIdx (fun _ slot =>
      { slot with picture := slot.picture.map fun picture => picture }) = arena.slots := by
    refine List.ext_getElem? fun index => ?_
    rw [List.getElem?_mapIdx]
    cases arena.slots[index]? <;> simp
  rw [each, same]

/-! The entries of a sound arena. -/

theorem mem_entries : (handle, picture) ∈ arena.entries ↔
    handle ∈ arena.order ∧ arena.find? handle = some picture := by
  simp only [entries, List.mem_filterMap, Option.map_eq_some_iff, Prod.mk.injEq]
  constructor
  · rintro ⟨key, live, other, found, rfl, rfl⟩
    exact ⟨live, found⟩
  · rintro ⟨live, found⟩
    exact ⟨handle, live, picture, found, rfl, rfl⟩

theorem entries_each (change : Handle → Picture ι → Picture ι) (arena : Arena ι) :
    (arena.each change).entries =
      arena.entries.map fun entry => (entry.1, change entry.1 entry.2) := by
  rw [entries, entries, List.map_filterMap]
  refine List.filterMap_congr fun handle _ => ?_
  rw [find?_each, Option.map_map, Option.map_map]
  rfl

namespace Sound

variable (sound : arena.Sound)

include sound

theorem each (change : Handle → Picture ι → Picture ι) : (arena.each change).Sound where
  mem_order := by
    intro handle
    rw [find?_each, Option.isSome_map]
    exact sound.mem_order handle
  order_nodup := sound.order_nodup
  mem_vacant := by
    intro index
    simp only [Arena.each, sound.mem_vacant, List.getElem?_mapIdx]
    cases arena.slots[index]? <;> simp
  vacant_nodup := sound.vacant_nodup

theorem mem_entries_iff :
    (handle, picture) ∈ arena.entries ↔ arena.find? handle = some picture := by
  rw [mem_entries, and_iff_right_iff_imp]
  exact sound.mem_order_of_find?

theorem entries_keys : arena.entries.map Prod.fst = arena.order := by
  rw [entries, List.map_filterMap]
  refine (List.filterMap_congr fun handle live => ?_).trans List.filterMap_some
  obtain ⟨picture, found⟩ := sound.exists_of_mem_order live
  simp [found]

theorem find?_eq_lookup (handle : Handle) : arena.find? handle = arena.entries.lookup handle := by
  cases looked : arena.find? handle with
  | none =>
      refine (List.lookup_eq_none_iff.mpr fun entry member => ?_).symm
      have found := sound.mem_entries_iff.mp member
      rw [bne_iff_ne]
      rintro rfl
      cases looked.symm.trans found
  | some picture =>
      have distinct := sound.order_nodup
      rw [← sound.entries_keys] at distinct
      exact (lookup_of_mem distinct (sound.mem_entries_iff.mpr looked)).symm

theorem entries_enter (picture : Picture ι) :
    (arena.enter picture).2.entries = arena.entries ++ [(arena.nextHandle, picture)] := by
  have early : (arena.order.filterMap fun handle =>
      ((arena.enter picture).2.find? handle).map (handle, ·)) = arena.entries := by
    refine List.filterMap_congr fun handle live => ?_
    rw [sound.find?_enter, if_neg]
    rintro rfl
    exact sound.nextHandle_not_mem live
  rw [entries, show (arena.enter picture).2.order = arena.order ++ [arena.nextHandle] from rfl,
    List.filterMap_append, early, List.filterMap_cons_some
      (b := (arena.nextHandle, picture)) (by simp [sound.find?_enter]), List.filterMap_nil]

theorem entries_remove (handle : Handle) : (Arena.remove handle arena).state.entries =
    arena.entries.filter fun entry => entry.1 != handle := by
  rw [entries, entries, sound.order_remove, List.filterMap_filter, List.filter_filterMap]
  refine List.filterMap_congr fun other _ => ?_
  rw [sound.find?_remove]
  by_cases same : other = handle
  · rw [same]
    cases arena.find? handle <;> simp [Option.filter]
  · cases arena.find? other <;> simp [same, Option.filter]

end Sound

end Arena

end VideoSchedule

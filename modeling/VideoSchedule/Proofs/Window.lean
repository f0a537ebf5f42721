import Mathlib.Data.List.Perm.Basic
import VideoSchedule.Proofs.Arena
import VideoSchedule.Proofs.Execution
import VideoSchedule.Window

/-!
Windows as finite maps. A change of every picture is `Window.each`; all changes that neither enter
nor erase a picture are of this form, so that one lemma says what becomes of each view.
-/

namespace VideoSchedule

namespace Picture

variable {ι : Type}

def bare (picture : Picture ι) : Picture ι := { picture with holds := ⟨0, 0⟩ }

def withHolds (holds : PerLevel Nat) (picture : Picture ι) : Picture ι := { picture with holds }

def plain (picture : Picture ι) : Picture ι :=
  { picture with
    type := .predicted
    depth := 0
    isReference := false
    dpb := []
    past := []
    future := []
    previous := none
    holds := ⟨0, 0⟩ }

theorem plain_bare (picture : Picture ι) : picture.bare.plain = picture.plain := rfl

theorem exists_of_bare_eq {first second : Picture ι} (same : first.bare = second.bare) :
    ∃ holds, first = second.withHolds holds := by
  have restored := congrArg (withHolds first.holds) same
  exact ⟨first.holds, restored⟩

end Picture

namespace Window

variable {ι : Type}

/-! Pictures by their handles. -/

theorem handles_eq (window : Window ι) : window.handles = window.entries.map Prod.fst :=
  window.sound.entries_keys.symm

theorem keys_nodup (window : Window ι) : (window.entries.map Prod.fst).Nodup :=
  window.handles_eq ▸ window.handles_nodup

@[simp]
theorem entries_empty : ({} : Window ι).entries = [] := rfl

theorem tail?_eq (window : Window ι) : window.tail? = window.handles.getLast? := rfl

theorem isEmpty_iff {window : Window ι} : window.isEmpty = true ↔ window.handles = [] :=
  List.isEmpty_iff

theorem find?_eq_lookup (window : Window ι) (handle : Handle) :
    window.find? handle = window.entries.lookup handle :=
  window.sound.find?_eq_lookup handle

theorem mem_entries_iff {window : Window ι} {handle : Handle} {picture : Picture ι} :
    (handle, picture) ∈ window.entries ↔ window.find? handle = some picture :=
  window.sound.mem_entries_iff

theorem entries_enter (picture : Picture ι) (window : Window ι) :
    (window.enter picture).2.entries = window.entries ++ [(window.nextHandle, picture)] :=
  window.sound.entries_enter picture

theorem entries_erase (handle : Handle) (window : Window ι) :
    (window.erase handle).entries = window.entries.filter fun entry => entry.1 != handle :=
  window.sound.entries_remove handle

theorem mem_handles_of_find? {window : Window ι} {handle : Handle} {picture : Picture ι}
    (found : window.find? handle = some picture) : handle ∈ window.handles :=
  window.sound.mem_order_of_find? found

theorem find?_unique {window : Window ι} {handle : Handle} {first second : Picture ι}
    (found : window.find? handle = some first) (again : window.find? handle = some second) :
    first = second :=
  Option.some.inj (found.symm.trans again)

theorem exists_of_mem_handles {window : Window ι} {handle : Handle}
    (live : handle ∈ window.handles) : ∃ picture, window.find? handle = some picture :=
  window.sound.exists_of_mem_order live

theorem mem_entries_of_find? {window : Window ι} {handle : Handle} {picture : Picture ι}
    (found : window.find? handle = some picture) : (handle, picture) ∈ window.entries :=
  mem_entries_iff.mpr found

theorem find?_of_mem_entries {window : Window ι} {handle : Handle} {picture : Picture ι}
    (member : (handle, picture) ∈ window.entries) : window.find? handle = some picture :=
  mem_entries_iff.mp member

theorem mem_pictures_of_find? {window : Window ι} {handle : Handle} {picture : Picture ι}
    (found : window.find? handle = some picture) : picture ∈ window.pictures :=
  List.mem_map.mpr ⟨_, mem_entries_of_find? found, rfl⟩

theorem mem_select_iff {window : Window ι} (condition : Handle → Picture ι → Bool)
    (handle : Handle) : handle ∈ window.select condition ↔
      ∃ picture, window.find? handle = some picture ∧ condition handle picture = true := by
  simp only [select, List.mem_map, List.mem_filter]
  constructor
  · rintro ⟨⟨first, picture⟩, ⟨member, checked⟩, rfl⟩
    exact ⟨picture, find?_of_mem_entries member, checked⟩
  · rintro ⟨picture, found, checked⟩
    exact ⟨(handle, picture), ⟨mem_entries_of_find? found, checked⟩, rfl⟩

theorem select_sublist (window : Window ι) (condition : Handle → Picture ι → Bool) :
    (window.select condition).Sublist window.handles := by
  rw [handles_eq]
  exact List.Sublist.map _ List.filter_sublist

/-! What the operations answer. -/

theorem onArena_eq {α : Type} {action : Action (Arena ι) α} {window after : Window ι}
    {keeps : ∀ {arena : Arena ι}, arena.Sound → (action arena).state.Sound}
    {result : Except EncodeError α} {notices : List Notice}
    (ends : action window.toArena = ⟨result, after.toArena, notices⟩) :
    onArena action keeps window = ⟨result, after, notices⟩ := by
  simp only [onArena, ends]

theorem fetch_found {window : Window ι} {handle : Handle} {picture : Picture ι}
    (found : window.find? handle = some picture) :
    fetch handle window = ⟨.ok picture, window, []⟩ :=
  onArena_eq (Arena.fetch_found found)

theorem fetch_missing {window : Window ι} {handle : Handle}
    (missing : window.find? handle = none) :
    fetch handle window = ⟨.error .invalidReferenceState, window, []⟩ :=
  onArena_eq (Arena.fetch_missing missing)

theorem alter_found {window : Window ι} {handle : Handle} {picture : Picture ι}
    (found : window.find? handle = some picture) (change : Picture ι → Picture ι) :
    alter handle change window = ⟨.ok (), window.adjust handle change, []⟩ :=
  onArena_eq (Arena.alter_found found change)

theorem alter_missing {window : Window ι} {handle : Handle}
    (missing : window.find? handle = none) (change : Picture ι → Picture ι) :
    alter handle change window = ⟨.error .invalidReferenceState, window, []⟩ :=
  onArena_eq (Arena.alter_missing missing change)

theorem remove_found {window : Window ι} {handle : Handle} {picture : Picture ι}
    (found : window.find? handle = some picture) :
    remove handle window = ⟨.ok picture, window.erase handle, []⟩ := by
  refine onArena_eq ((Arena.remove_found window.sound found).trans ?_)
  simp only [erase, Arena.remove_found window.sound found]

/-! Changes of every picture. -/

def each (change : Handle → Picture ι → Picture ι) (window : Window ι) : Window ι :=
  ⟨window.toArena.each change, window.sound.each change⟩

theorem adjust_eq_each (handle : Handle) (change : Picture ι → Picture ι) (window : Window ι) :
    window.adjust handle change =
      window.each fun other picture => if other = handle then change picture else picture :=
  eq_of_arena_eq (window.toArena.adjust_eq_each handle change)

theorem each_each (first second : Handle → Picture ι → Picture ι) (window : Window ι) :
    (window.each first).each second =
      window.each fun handle picture => second handle (first handle picture) :=
  eq_of_arena_eq (window.toArena.each_each first second)

theorem each_congr {window : Window ι} {first second : Handle → Picture ι → Picture ι}
    (same : ∀ handle picture, (handle, picture) ∈ window.entries →
      first handle picture = second handle picture) :
    window.each first = window.each second :=
  eq_of_arena_eq (Arena.each_congr fun handle picture found =>
    same handle picture (mem_entries_of_find? found))

theorem each_id (window : Window ι) : window.each (fun _ picture => picture) = window :=
  eq_of_arena_eq window.toArena.each_id

theorem handles_each (change : Handle → Picture ι → Picture ι) (window : Window ι) :
    (window.each change).handles = window.handles := rfl

theorem entries_each (change : Handle → Picture ι → Picture ι) (window : Window ι) :
    (window.each change).entries =
      window.entries.map fun entry => (entry.1, change entry.1 entry.2) :=
  window.toArena.entries_each change

theorem pictures_each (change : Handle → Picture ι → Picture ι) (window : Window ι) :
    (window.each change).pictures = window.entries.map fun entry => change entry.1 entry.2 := by
  rw [pictures, entries_each, List.map_map]
  rfl

theorem find?_each (change : Handle → Picture ι → Picture ι) (window : Window ι)
    (handle : Handle) :
    (window.each change).find? handle = (window.find? handle).map (change handle) :=
  window.toArena.find?_each change handle

theorem find?_adjust_self {window : Window ι} {handle : Handle} {picture : Picture ι}
    (found : window.find? handle = some picture) (change : Picture ι → Picture ι) :
    (window.adjust handle change).find? handle = some (change picture) := by
  simp [find?_adjust, found]

theorem find?_adjust_of_ne {handle other : Handle} (different : other ≠ handle)
    (window : Window ι) (change : Picture ι → Picture ι) :
    (window.adjust handle change).find? other = window.find? other := by
  simp [find?_adjust, different]

theorem exists_find?_adjust {window : Window ι} {handle : Handle} {picture : Picture ι}
    (found : window.find? handle = some picture) (other : Handle) (change : Picture ι → Picture ι) :
    ∃ current, (window.adjust other change).find? handle = some current := by
  rw [find?_adjust, found]
  split <;> exact ⟨_, rfl⟩

theorem adjust_adjust (handle : Handle) (first second : Picture ι → Picture ι)
    (window : Window ι) :
    (window.adjust handle first).adjust handle second =
      window.adjust handle (fun picture => second (first picture)) := by
  rw [adjust_eq_each, adjust_eq_each, adjust_eq_each, each_each]
  apply each_congr
  intro other picture _
  by_cases same : other = handle <;> simp [same]

theorem adjust_congr {window : Window ι} {handle : Handle} {picture : Picture ι}
    (found : window.find? handle = some picture) {first second : Picture ι → Picture ι}
    (same : first picture = second picture) :
    window.adjust handle first = window.adjust handle second := by
  rw [adjust_eq_each, adjust_eq_each]
  apply each_congr
  intro other current member
  split
  next here =>
    subst here
    cases find?_unique found (find?_of_mem_entries member)
    exact same
  next => rfl

theorem adjust_id (handle : Handle) (window : Window ι) :
    window.adjust handle (fun picture => picture) = window := by
  rw [adjust_eq_each]
  simp only [ite_self]
  exact each_id window

/-! Windows without the holds, and without all that scheduling fills in. -/

def bare (window : Window ι) : Window ι := window.each fun _ picture => picture.bare

def plain (window : Window ι) : Window ι := window.each fun _ picture => picture.plain

theorem bare_each_of_bare {window : Window ι} {first second : Handle → Picture ι → Picture ι}
    (same : ∀ handle picture, (handle, picture) ∈ window.entries →
      (first handle picture).bare = (second handle picture).bare) :
    (window.each first).bare = (window.each second).bare := by
  simp only [bare, each_each]
  exact each_congr same

theorem plain_eq_of_bare_eq {first second : Window ι} (same : first.bare = second.bare) :
    first.plain = second.plain := by
  have erased := congrArg plain same
  simpa [bare, plain, each_each, Picture.plain_bare] using erased

theorem handles_eq_of_plain_eq {first second : Window ι} (same : first.plain = second.plain) :
    first.handles = second.handles :=
  (congrArg handles same :)

theorem find?_of_map_eq {first second : Window ι} {handle : Handle} {picture : Picture ι}
    {view : Picture ι → Picture ι}
    (same : (second.find? handle).map view = (first.find? handle).map view)
    (found : first.find? handle = some picture) :
    ∃ other, second.find? handle = some other ∧ view other = view picture := by
  rw [found, Option.map_some, Option.map_eq_some_iff] at same
  exact same

theorem find?_plain_eq {first second : Window ι} (same : first.plain = second.plain)
    (handle : Handle) :
    (first.find? handle).map Picture.plain = (second.find? handle).map Picture.plain := by
  have erased := congrArg (fun window => window.find? handle) same
  simpa [plain, find?_each] using erased

theorem find?_bare_eq {first second : Window ι} (same : first.bare = second.bare)
    (handle : Handle) :
    (first.find? handle).map Picture.bare = (second.find? handle).map Picture.bare := by
  have erased := congrArg (fun window => window.find? handle) same
  simpa [bare, find?_each] using erased

theorem pictures_map_eq_of_plain_eq {α : Type} {first second : Window ι}
    (same : first.plain = second.plain) (view : Picture ι → α)
    (ignores : ∀ picture : Picture ι, view picture.plain = view picture) :
    first.pictures.map view = second.pictures.map view := by
  have erased := congrArg (fun window => window.pictures.map view) same
  simpa [plain, entries_each, pictures, Function.comp_def, ignores] using erased

theorem pictures_map_eq_of_bare_eq {α : Type} {first second : Window ι}
    (same : first.bare = second.bare) (view : Picture ι → α)
    (ignores : ∀ picture : Picture ι, view picture.bare = view picture) :
    first.pictures.map view = second.pictures.map view := by
  have erased := congrArg (fun window => window.pictures.map view) same
  simpa [bare, entries_each, pictures, Function.comp_def, ignores] using erased

theorem pictures_map_adjust {α : Type} (handle : Handle) (change : Picture ι → Picture ι)
    (view : Picture ι → α) (same : ∀ picture, view (change picture) = view picture)
    (window : Window ι) :
    (window.adjust handle change).pictures.map view = window.pictures.map view := by
  rw [adjust_eq_each, pictures_each, pictures, List.map_map, List.map_map]
  refine List.map_congr_left fun entry _ => ?_
  simp only [Function.comp]
  split
  · exact same entry.2
  · rfl

structure Around (window : Window ι) (handle : Handle) (picture : Picture ι)
    (front back : List (Handle × Picture ι)) : Prop where
  entries : window.entries = front ++ (handle, picture) :: back
  apart : ∀ entry ∈ front ++ back, entry.1 ≠ handle

theorem exists_around {window : Window ι} {handle : Handle} {picture : Picture ι}
    (found : window.find? handle = some picture) :
    ∃ front back, window.Around handle picture front back := by
  rw [find?_eq_lookup] at found
  obtain ⟨front, back, entriesEq, _⟩ := List.lookup_eq_some_iff.mp found
  refine ⟨front, back, entriesEq, ?_⟩
  have distinct := window.handles_nodup
  rw [handles_eq, entriesEq, List.map_append, List.map_cons, List.nodup_middle, List.nodup_cons,
    ← List.map_append] at distinct
  rintro entry member rfl
  exact distinct.1 (List.mem_map.mpr ⟨entry, member, rfl⟩)

namespace Around

variable {window : Window ι} {handle : Handle} {picture : Picture ι}
  {front back : List (Handle × Picture ι)}

theorem adjust (around : window.Around handle picture front back)
    (change : Picture ι → Picture ι) :
    (window.adjust handle change).Around handle (change picture) front back := by
  have untouched : ∀ entries : List (Handle × Picture ι), (∀ entry ∈ entries, entry.1 ≠ handle) →
      entries.map (fun entry =>
        (entry.1, if entry.1 = handle then change entry.2 else entry.2)) = entries := by
    intro entries others
    refine (List.map_congr_left fun entry member => ?_).trans (List.map_id entries)
    rw [if_neg (others entry member)]
    rfl
  refine ⟨?_, around.apart⟩
  rw [adjust_eq_each, entries_each, around.entries, List.map_append, List.map_cons, if_pos rfl,
    untouched front fun entry member => around.apart entry (List.mem_append_left _ member),
    untouched back fun entry member => around.apart entry (List.mem_append_right _ member)]

theorem erase (around : window.Around handle picture front back) :
    (window.erase handle).entries = front ++ back := by
  rw [entries_erase, around.entries, List.filter_append, List.filter_cons_of_neg (by simp),
    ← List.filter_append]
  exact List.filter_eq_self.mpr fun entry member => by simpa using around.apart entry member

theorem pictures_perm (around : window.Around handle picture front back) :
    window.pictures.Perm (picture :: (front ++ back).map Prod.snd) := by
  rw [pictures, around.entries]
  exact (List.perm_middle.map Prod.snd :)

end Around

theorem find?_enter_self (picture : Picture ι) (window : Window ι) :
    (window.enter picture).2.find? window.nextHandle = some picture := by
  rw [find?_enter, if_pos rfl]

theorem find?_enter_of_find? (picture : Picture ι) {window : Window ι} {handle : Handle}
    {old : Picture ι} (found : window.find? handle = some old) :
    (window.enter picture).2.find? handle = some old := by
  rw [find?_enter, if_neg, found]
  rintro rfl
  exact window.nextHandle_not_mem (mem_handles_of_find? found)

theorem pictures_enter (picture : Picture ι) (window : Window ι) :
    (window.enter picture).2.pictures = window.pictures ++ [picture] := by
  simp [pictures, entries_enter]

def ofPictures (pictures : List (Picture ι)) : Window ι :=
  pictures.foldl (fun window picture => (window.enter picture).2) {}

/-! Images. -/

def images (window : Window ι) : List ι := window.pictures.filterMap Picture.image

def Stocked (window : Window ι) : Prop :=
  ∀ handle picture, window.find? handle = some picture → ∃ image, picture.image = some image

theorem mem_images {window : Window ι} {handle : Handle} {picture : Picture ι} {image : ι}
    (found : window.find? handle = some picture) (held : picture.image = some image) :
    image ∈ window.images :=
  List.mem_filterMap.mpr ⟨picture, mem_pictures_of_find? found, held⟩

theorem images_enter {picture : Picture ι} {image : ι} (held : picture.image = some image)
    (window : Window ι) : (window.enter picture).2.images = window.images ++ [image] := by
  rw [images, pictures_enter, List.filterMap_append, List.filterMap_cons_some held]
  rfl

theorem images_eq_of_map_eq {first second : Window ι}
    (same : first.pictures.map Picture.image = second.pictures.map Picture.image) :
    first.images = second.images := by
  have kept := congrArg (List.filterMap id) same
  rwa [List.filterMap_map, List.filterMap_map] at kept

theorem images_adjust (handle : Handle) {change : Picture ι → Picture ι}
    (same : ∀ picture, (change picture).image = picture.image) (window : Window ι) :
    (window.adjust handle change).images = window.images :=
  images_eq_of_map_eq (pictures_map_adjust handle change Picture.image same window)

theorem Stocked.of_origin {before after : Window ι} (stocked : before.Stocked)
    (origin : ∀ handle picture, after.find? handle = some picture →
      ∃ old, before.find? handle = some old ∧ picture.image = old.image) : after.Stocked := by
  intro handle picture found
  obtain ⟨old, foundOld, same⟩ := origin handle picture found
  rw [same]
  exact stocked handle old foundOld

theorem Stocked.enter {window : Window ι} (stocked : window.Stocked) {picture : Picture ι}
    {image : ι} (held : picture.image = some image) : (window.enter picture).2.Stocked := by
  intro handle other found
  rw [find?_enter] at found
  split at found
  · cases found
    exact ⟨image, held⟩
  · exact stocked handle other found

theorem Stocked.adjust {window : Window ι} (stocked : window.Stocked) (handle : Handle)
    {change : Picture ι → Picture ι} (same : ∀ picture, (change picture).image = picture.image) :
    (window.adjust handle change).Stocked := by
  refine stocked.of_origin fun other picture found => ?_
  rw [find?_adjust] at found
  split at found
  · obtain ⟨old, foundOld, rfl⟩ := Option.map_eq_some_iff.mp found
    exact ⟨old, foundOld, same old⟩
  · exact ⟨picture, found, rfl⟩

/-! Display orders. -/

def orderOf (window : Window ι) (handle : Handle) : Nat :=
  ((window.find? handle).map Picture.displayOrder).getD 0

theorem orderOf_of_find? {window : Window ι} {handle : Handle} {picture : Picture ι}
    (found : window.find? handle = some picture) :
    window.orderOf handle = picture.displayOrder := by
  rw [orderOf, found, Option.map_some, Option.getD_some]

theorem orderOf_eq_of_plain_eq {first second : Window ι} (same : first.plain = second.plain) :
    first.orderOf = second.orderOf := by
  funext handle
  have erased := congrArg (Option.map Picture.displayOrder) (find?_plain_eq same handle)
  rw [Option.map_map, Option.map_map] at erased
  exact congrArg (Option.getD · 0) erased

theorem orderOf_adjust (handle : Handle) (change : Picture ι → Picture ι) (window : Window ι)
    (same : ∀ picture, (change picture).displayOrder = picture.displayOrder) :
    (window.adjust handle change).orderOf = window.orderOf := by
  funext other
  rw [orderOf, orderOf, find?_adjust]
  split
  · rw [Option.map_map]
    exact congrArg (Option.getD · 0) (Option.map_congr fun picture _ => same picture)
  · rfl

end Window

end VideoSchedule

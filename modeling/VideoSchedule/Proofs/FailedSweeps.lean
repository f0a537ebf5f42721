import Mathlib.Data.List.TakeWhile
import VideoSchedule.Proofs.Sweeping

/-!
Sweeps that fail. The passes that give up holds take no picture out, however they end. The last pass
takes the free pictures out one after the other and hands them over at its end; if it refuses one of
them, those that it took out before are in nobody's hands.
-/

namespace VideoSchedule

open VideoSchedule.Action

namespace Window

variable {ι α β : Type}

def cores (window : Window ι) : List (Handle × Picture ι) :=
  window.entries.map fun entry => (entry.1, entry.2.core)

theorem handles_of_cores {before after : Window ι} (same : after.cores = before.cores) :
    after.handles = before.handles := by
  have first := congrArg (List.map Prod.fst) same
  simpa [cores, handles_eq, Function.comp_def] using first

theorem pictures_cores (window : Window ι) :
    window.pictures.map Picture.core = window.cores.map Prod.snd := by
  simp [pictures, cores, Function.comp_def]

theorem cores_adjust {change : Picture ι → Picture ι}
    (keeps : ∀ picture, (change picture).core = picture.core) (handle : Handle)
    (window : Window ι) : (window.adjust handle change).cores = window.cores := by
  rw [adjust_eq_each, cores, entries_each, cores, List.map_map]
  refine List.map_congr_left fun entry _ => ?_
  simp only [Function.comp]
  split
  · rw [keeps]
  · rfl

def Harmless (action : Action (Window ι) α) : Prop :=
  ∀ window, (action window).state.cores = window.cores

theorem harmless_pure (value : α) : Harmless (Pure.pure value : Action (Window ι) α) :=
  fun _ => rfl

theorem harmless_get : Harmless (Action.get : Action (Window ι) (Window ι)) := fun _ => rfl

theorem harmless_refuse (notice : Notice) (cause : EncodeError) :
    Harmless (Action.refuse notice cause : Action (Window ι) α) :=
  fun _ => rfl

theorem Harmless.bind {first : Action (Window ι) α} {next : α → Action (Window ι) β}
    (head : Harmless first) (tail : ∀ value, Harmless (next value)) :
    Harmless (first >>= next) := by
  intro window
  have kept := head window
  rw [bind_run, Action.bind]
  rcases ended : first window with ⟨cause | value, middle, notices⟩ <;> rw [ended] at kept
  · exact kept
  · exact (tail value middle).trans kept

theorem Harmless.forM {action : α → Action (Window ι) Unit}
    (each : ∀ value, Harmless (action value)) (values : List α) : Harmless (values.forM action) := by
  induction values with
  | nil => exact harmless_pure ()
  | cons value rest ih => exact (each value).bind fun _ => ih

theorem harmless_fetch (handle : Handle) : Harmless (fetch handle : Action (Window ι) _) :=
  fun _ => rfl

theorem harmless_modify {change : Window ι → Window ι}
    (keeps : ∀ window, (change window).cores = window.cores) : Harmless (Action.modify change) :=
  keeps

theorem harmless_alter (handle : Handle) {change : Picture ι → Picture ι}
    (keeps : ∀ picture, (change picture).core = picture.core) : Harmless (alter handle change) := by
  intro window
  cases looked : window.find? handle with
  | none => rw [alter_missing looked]
  | some picture =>
      rw [alter_found looked]
      exact cores_adjust keeps handle window

theorem harmless_unhold (level : HoldLevel) (handle : Handle) :
    Harmless (unhold level handle : Action (Window ι) Unit) := by
  refine (harmless_fetch handle).bind fun picture => ?_
  split
  · exact harmless_refuse _ _
  · exact harmless_modify fun window => cores_adjust (by exact fun _ => rfl) handle window

end Window

namespace Retirement

open Window

variable {ι : Type}

theorem harmless_releaseHeld (level : HoldLevel) (handle : Handle) :
    Harmless (releaseHeld level handle : Action (Window ι) Unit) := by
  refine (harmless_fetch handle).bind fun picture => ?_
  split
  · exact harmless_pure ()
  · split
    · exact harmless_refuse _ _
    · exact (Harmless.forM (harmless_unhold level) _).bind fun _ =>
        harmless_alter handle fun _ => rfl

def giveUpHolds (final : Bool) : Action (Window ι) Unit := do
  let window ← Action.get
  (window.select (endsDirect final window.tail?)).forM (releaseHeld .direct)
  let window ← Action.get
  (window.select fun _ picture => endsIndirect picture).forM (releaseHeld .indirect)

theorem clear_eq_giveUpHolds (final : Bool) : (clear final : Action (Window ι) _) =
    giveUpHolds final >>= fun _ => Action.get >>= fun window =>
      retireAll (window.select fun _ picture => isFree picture) := by
  simp only [clear, giveUpHolds, bind_assoc]

theorem harmless_giveUpHolds (final : Bool) :
    Harmless (giveUpHolds final : Action (Window ι) Unit) :=
  harmless_get.bind fun _ => (Harmless.forM (harmless_releaseHeld .direct) _).bind fun _ =>
    harmless_get.bind fun _ => Harmless.forM (harmless_releaseHeld .indirect) _

/-! The last pass, picture by picture. -/

variable {window : Window ι} {handle : Handle} {targets : List Handle}

theorem retire_leaves {picture : Picture ι} (found : window.find? handle = some picture)
    (leaves : mayLeave picture = true) :
    retire handle window = ⟨.ok picture, window.erase handle, []⟩ := by
  rw [retire, bind_silent (fetch_found found), if_pos leaves]
  exact remove_found found

theorem retire_refused {picture : Picture ι} (found : window.find? handle = some picture)
    (stays : mayLeave picture = false) : retire handle window =
      ⟨.error .invalidReferenceState, window, [.stillInUse picture.displayOrder]⟩ := by
  rw [retire, bind_silent (fetch_found found), if_neg (by simp [stays])]
  rfl

theorem filter_erase (handle : Handle) (targets : List Handle) (window : Window ι) :
    (window.erase handle).entries.filter (·.1 ∉ targets) =
      window.entries.filter (·.1 ∉ handle :: targets) := by
  rw [entries_erase, List.filter_filter]
  refine List.filter_congr fun entry _ => ?_
  by_cases same : entry.1 = handle <;> simp [same]

theorem retireAll_leaves {picture : Picture ι} (found : window.find? handle = some picture)
    (leaves : mayLeave picture = true) (others : List Handle) :
    (retireAll (handle :: others) window).state =
        (retireAll others (window.erase handle)).state ∧
      (retireAll (handle :: others) window).result =
        (retireAll others (window.erase handle)).result.map (picture :: ·) := by
  rw [retireAll, bind_silent (retire_leaves found leaves), bind_run, Action.bind]
  rcases retireAll others (window.erase handle) with ⟨cause | gone, after, notices⟩
  · exact ⟨rfl, rfl⟩
  · exact ⟨rfl, rfl⟩

theorem retireAll_refused {picture : Picture ι} (found : window.find? handle = some picture)
    (stays : mayLeave picture = false) (others : List Handle) :
    retireAll (handle :: others) window =
      ⟨.error .invalidReferenceState, window, [.stillInUse picture.displayOrder]⟩ := by
  rw [retireAll, bind_run, Action.bind, retire_refused found stays]

/-- The pictures in front of the first one that may not leave are taken out in any case. -/
theorem retireAll_eq (entries : List (Handle × Picture ι))
    (distinct : (entries.map Prod.fst).Nodup)
    (found : ∀ entry ∈ entries, window.find? entry.1 = some entry.2) :
    (retireAll (entries.map Prod.fst) window).state.entries = window.entries.filter
        (·.1 ∉ (entries.takeWhile (mayLeave ·.2)).map Prod.fst) ∧
      (retireAll (entries.map Prod.fst) window).result =
        if entries.all (mayLeave ·.2) then .ok (entries.map Prod.snd)
        else .error .invalidReferenceState := by
  induction entries generalizing window with
  | nil => simp [retireAll, pure_run]
  | cons entry rest ih =>
      obtain ⟨foundFirst, foundRest⟩ := List.forall_mem_cons.mp found
      rw [List.map_cons, List.nodup_cons] at distinct
      cases leaves : mayLeave entry.2 with
      | false => simp [retireAll_refused foundFirst leaves, leaves]
      | true =>
          have remains : ∀ other ∈ rest, (window.erase entry.1).find? other.1 = some other.2 := by
            intro other member
            rw [find?_erase, if_neg]
            · exact foundRest other member
            · intro same
              rw [← same] at distinct
              exact distinct.1 (List.mem_map_of_mem member)
          obtain ⟨left, ended⟩ := ih distinct.2 remains
          obtain ⟨state, result⟩ := retireAll_leaves foundFirst leaves (rest.map Prod.fst)
          have longer : (entry :: rest).takeWhile (mayLeave ·.2) =
              entry :: rest.takeWhile (mayLeave ·.2) := List.takeWhile_cons_of_pos leaves
          rw [List.map_cons, state, result, left, ended, filter_erase, longer, List.all_cons, leaves,
            Bool.true_and]
          refine ⟨rfl, ?_⟩
          split <;> rfl

/-! The sweep. -/

def free (window : Window ι) : List (Handle × Picture ι) :=
  window.entries.filter fun entry => isFree entry.2

def taken (unheld : Window ι) : List (Handle × Picture ι) :=
  (free unheld).takeWhile (mayLeave ·.2)

theorem taken_sublist (unheld : Window ι) : (taken unheld).Sublist unheld.entries :=
  (List.takeWhile_sublist _).trans List.filter_sublist

theorem not_mem_taken {unheld : Window ι}
    {entry : Handle × Picture ι} (live : entry ∈ unheld.entries)
    (stays : mayLeave entry.2 = false) : entry.1 ∉ (taken unheld).map Prod.fst := by
  intro among
  obtain ⟨other, first, same⟩ := List.mem_map.mp among
  have foundOther := find?_of_mem_entries ((taken_sublist unheld).subset first)
  rw [same] at foundOther
  have leaves := List.mem_takeWhile_imp first
  rw [find?_unique foundOther (find?_of_mem_entries live), stays] at leaves
  cases leaves

/-- Pictures that leave the window and are not handed over: those that the last pass took out before
it refused one. -/
def losses (final : Bool) (window : Window ι) : List (Handle × Picture ι) :=
  match giveUpHolds final window with
  | ⟨.ok _, unheld, _⟩ =>
      if (free unheld).all (mayLeave ·.2) then [] else taken unheld
  | ⟨.error _, _, _⟩ => []

def handedOver (outcome : Outcome (Window ι) (List (Picture ι))) : List (Picture ι) :=
  match outcome.result with
  | .ok gone => gone
  | .error _ => []

theorem partition_taken {taken : List (Handle × Picture ι)}
    (within : taken.Sublist window.entries) :
    (taken ++ window.entries.filter (·.1 ∉ taken.map Prod.fst)).Perm window.entries := by
  have entriesDistinct : window.entries.Nodup := List.Nodup.of_map Prod.fst window.keys_nodup
  have same : taken.Perm (window.entries.filter fun entry => entry.1 ∈ taken.map Prod.fst) := by
    rw [List.perm_ext_iff_of_nodup (entriesDistinct.sublist within) (entriesDistinct.filter _)]
    intro entry
    simp only [List.mem_filter, List.mem_map, decide_eq_true_eq]
    constructor
    · intro member
      exact ⟨within.subset member, entry, member, rfl⟩
    · rintro ⟨member, other, taken, sameHandle⟩
      have foundOther := find?_of_mem_entries (within.subset taken)
      rw [sameHandle] at foundOther
      have sameEntry : other = entry :=
        Prod.ext sameHandle (find?_unique foundOther (find?_of_mem_entries member))
      rwa [sameEntry] at taken
  refine (same.append_right _).trans ?_
  simpa using List.filter_append_perm
    (fun entry : Handle × Picture ι => decide (entry.1 ∈ taken.map Prod.fst)) window.entries

theorem clear_halted {final : Bool} {cause : EncodeError} {unheld : Window ι}
    {notices : List Notice} (ended : giveUpHolds final window = ⟨.error cause, unheld, notices⟩) :
    clear final window = ⟨.error cause, unheld, notices⟩ := by
  rw [clear_eq_giveUpHolds, bind_run, Action.bind, ended]

theorem clear_unheld {final : Bool} {unheld : Window ι} {notices : List Notice}
    (ended : giveUpHolds final window = ⟨.ok (), unheld, notices⟩) :
    (clear final window).state = (retireAll ((free unheld).map Prod.fst) unheld).state ∧
      (clear final window).result = (retireAll ((free unheld).map Prod.fst) unheld).result := by
  rw [clear_eq_giveUpHolds, bind_run, Action.bind, ended]
  exact ⟨rfl, rfl⟩

/-- What becomes of the pictures in a sweep, however it ends. -/
structure Parts (final : Bool) (window : Window ι) : Prop where
  /-- Each picture is handed over, lost, or left in the window. -/
  partition : ((handedOver (clear final window)).map Picture.core ++
    (losses final window).map (·.2.core) ++
      (clear final window).state.pictures.map Picture.core).Perm (window.pictures.map Picture.core)
  staying : (clear final window).state.cores.Sublist window.cores
  vanished : ∀ entry ∈ losses final window,
    entry.1 ∈ window.handles ∧ entry.1 ∉ (clear final window).state.handles
  succeeds : ∀ gone, (clear final window).result = .ok gone → losses final window = []
  /-- Pictures are lost only where a free picture was refused, which stays. -/
  refuses : losses final window ≠ [] →
    (clear final window).result = .error .invalidReferenceState ∧
      ∃ handle picture, (clear final window).state.find? handle = some picture ∧
        isFree picture = true ∧ mayLeave picture = false
  /-- Exact counts refuse no free picture. -/
  tidy : ∀ recent, window.Tidy recent → Retirable recent window → losses final window = []

theorem parts_halted {final : Bool} {cause : EncodeError} {unheld : Window ι}
    {notices : List Notice} (ended : giveUpHolds final window = ⟨.error cause, unheld, notices⟩) :
    Parts final window := by
  have kept := harmless_giveUpHolds final window
  rw [ended] at kept
  have nothing : losses final window = [] := by rw [losses, ended]
  have halted := clear_halted ended
  constructor
  case partition =>
    rw [nothing, halted, pictures_cores, pictures_cores, kept]
    exact List.Perm.refl _
  case staying => rw [halted, kept]
  case vanished => simp [nothing]
  case succeeds => exact fun _ _ => nothing
  case refuses => exact fun some => absurd nothing some
  case tidy => exact fun _ _ _ => nothing

theorem clear_ends {final : Bool} {unheld : Window ι} {notices : List Notice}
    (ended : giveUpHolds final window = ⟨.ok (), unheld, notices⟩) :
    (clear final window).state.entries =
        unheld.entries.filter (·.1 ∉ (taken unheld).map Prod.fst) ∧
      ((clear final window).result = .ok ((taken unheld).map Prod.snd) ∧
          losses final window = [] ∨
        (clear final window).result = .error .invalidReferenceState ∧
          losses final window = taken unheld ∧
          ∃ refused ∈ free unheld, mayLeave refused.2 = false) := by
  obtain ⟨state, result⟩ := clear_unheld ended
  obtain ⟨left, answer⟩ := retireAll_eq (free unheld)
    (unheld.keys_nodup.sublist (List.filter_sublist.map Prod.fst))
    fun entry member => find?_of_mem_entries (List.mem_of_mem_filter member)
  refine ⟨by rw [state, left, taken], ?_⟩
  rw [result, answer, losses, ended]
  by_cases leave : (free unheld).all (mayLeave ·.2) = true
  · have whole : taken unheld = free unheld :=
      List.takeWhile_eq_self_iff.mpr fun entry member => List.all_eq_true.mp leave entry member
    exact .inl ⟨by rw [if_pos leave, whole], if_pos leave⟩
  · refine .inr ⟨if_neg leave, if_neg leave, ?_⟩
    rw [List.all_eq_true] at leave
    simpa using leave

theorem parts_unheld {final : Bool} {unheld : Window ι} {notices : List Notice}
    (ended : giveUpHolds final window = ⟨.ok (), unheld, notices⟩) : Parts final window := by
  have kept : unheld.cores = window.cores := by
    have kept := harmless_giveUpHolds final window
    rwa [ended] at kept
  obtain ⟨left, ends⟩ := clear_ends ended
  constructor
  case partition =>
    have shared : (handedOver (clear final window)).map Picture.core ++
        (losses final window).map (·.2.core) = (taken unheld).map (·.2.core) := by
      rcases ends with ⟨answer, none⟩ | ⟨answer, some, _⟩
      · simp [handedOver, answer, none, Function.comp_def]
      · simp [handedOver, answer, some]
    have cores : window.pictures.map Picture.core = unheld.entries.map (·.2.core) := by
      rw [pictures_cores, ← kept]
      simp [Window.cores, Function.comp_def]
    have entries := (partition_taken (taken_sublist unheld)).map (·.2.core)
    rw [List.map_append] at entries
    rw [shared, cores, pictures, List.map_map, left]
    exact entries
  case staying =>
    rw [← kept, Window.cores, left]
    exact List.filter_sublist.map _
  case vanished =>
    intro entry member
    have among : entry ∈ taken unheld := by
      rcases ends with ⟨_, none⟩ | ⟨_, some, _⟩
      · rw [none] at member
        cases member
      · rwa [some] at member
    refine ⟨?_, ?_⟩
    · rw [← handles_of_cores kept, handles_eq]
      exact List.mem_map_of_mem ((taken_sublist unheld).subset among)
    · intro stayed
      rw [handles_eq, left] at stayed
      obtain ⟨other, left, same⟩ := List.mem_map.mp stayed
      have apart := (List.mem_filter.mp left).2
      rw [same, decide_eq_true_eq] at apart
      exact apart (List.mem_map_of_mem among)
  case succeeds =>
    intro gone succeeded
    rcases ends with ⟨_, none⟩ | ⟨failed, _, _⟩
    · exact none
    · cases failed.symm.trans succeeded
  case refuses =>
    intro some
    rcases ends with ⟨_, none⟩ | ⟨failed, _, refused, member, stays⟩
    · exact absurd none some
    · obtain ⟨live, isFree⟩ := List.mem_filter.mp member
      have remains : refused ∈ (clear final window).state.entries := by
        rw [left, List.mem_filter]
        exact ⟨live, decide_eq_true (not_mem_taken live stays)⟩
      exact ⟨failed, refused.1, refused.2, find?_of_mem_entries remains, isFree, stays⟩
  case tidy =>
    intro recent tidy retirable
    obtain ⟨gone, after, runs, _⟩ := clear_ok tidy retirable final
    rcases ends with ⟨_, none⟩ | ⟨failed, _, _⟩
    · exact none
    · cases failed.symm.trans runs.result_eq

theorem clear_parts (final : Bool) : Parts final window := by
  rcases ended : giveUpHolds final window with ⟨cause | ⟨⟩, unheld, notices⟩
  · exact parts_halted ended
  · exact parts_unheld ended

/-- Two complete key pictures that nobody holds. The second one, at the end of the window, keeps its
direct holds for the next picture, and so may not leave yet. -/
def twoKeys : Window Unit :=
  ofPictures [
    { Picture.ofFrame 0 {} true () with type := .idr, complete := true },
    { Picture.ofFrame 1 {} true () with type := .idr, complete := true }]

theorem clear_parts_twoKeys :
    twoKeys.handles.Nodup ∧ (losses false twoKeys).map Prod.fst = [⟨0, 0⟩] ∧
      losses true twoKeys = [] ∧ Parts false twoKeys ∧ Parts true twoKeys :=
  ⟨by decide, by decide, by decide, clear_parts false, clear_parts true⟩

theorem clear_drops_picture :
    ¬∀ (final : Bool) (window : Window Unit), window.handles.Nodup →
      ∀ entry ∈ window.cores, entry ∈ (clear final window).state.cores ∨
        entry.2 ∈ (handedOver (clear final window)).map Picture.core := by
  intro keeps
  have first := keeps false twoKeys (by decide) _ (List.mem_cons_self ..)
  revert first
  decide

end Retirement

end VideoSchedule

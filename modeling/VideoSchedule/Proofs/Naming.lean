import VideoSchedule.Proofs.Holds

/-!
Naming pictures one after the other. Counts stay exact, and nothing changes but the lists of the
picture that names and the holds on those that are named.
-/

namespace VideoSchedule

open VideoSchedule.Action

structure Picture.Blank {ι : Type} (picture : Picture ι) : Prop where
  past : picture.past = []
  future : picture.future = []
  dpb : picture.dpb = []
  previous : picture.previous = none
  released : picture.released = ⟨false, false⟩

structure Picture.Fresh {ι : Type} (picture : Picture ι) : Prop extends picture.Blank where
  type : picture.type = .predicted
  waiting : picture.issued = false

theorem Picture.Fresh.withHolds {ι : Type} {picture : Picture ι} (fresh : picture.Fresh)
    (holds : PerLevel Nat) : (picture.withHolds holds).Fresh :=
  ⟨⟨fresh.past, fresh.future, fresh.dpb, fresh.previous, fresh.released⟩, fresh.type, fresh.waiting⟩

def Picture.refer {ι : Type} (past dpb : List Handle) (picture : Picture ι) : Picture ι :=
  { picture with past := picture.past ++ past, dpb := picture.dpb ++ dpb }

namespace Window

variable {ι : Type}

def Tallies (before after : Window ι) : Prop :=
  ∀ recent, before.Exact recent → after.Exact recent

theorem Tallies.refl (window : Window ι) : Tallies window window := fun _ => id

theorem Tallies.trans {before middle after : Window ι} (first : Tallies before middle)
    (second : Tallies middle after) : Tallies before after :=
  fun recent accounted => second recent (first recent accounted)

/-- What scheduling may change: types, lists and holds of `touched`, and of all others the holds. -/
structure Rewrites (touched : List Handle) (before after : Window ι) : Prop where
  plain : after.plain = before.plain
  others : ∀ handle, handle ∉ touched →
    (after.find? handle).map Picture.bare = (before.find? handle).map Picture.bare

namespace Rewrites

variable {touched : List Handle} {before middle after : Window ι}

theorem refl (touched : List Handle) (window : Window ι) : Rewrites touched window window :=
  ⟨rfl, fun _ _ => rfl⟩

theorem trans (first : Rewrites touched before middle) (second : Rewrites touched middle after) :
    Rewrites touched before after :=
  ⟨second.plain.trans first.plain,
    fun handle apart => (second.others handle apart).trans (first.others handle apart)⟩

theorem mono {more : List Handle} (rewrites : Rewrites touched before after)
    (subset : ∀ handle ∈ touched, handle ∈ more) : Rewrites more before after :=
  ⟨rewrites.plain, fun handle apart =>
    rewrites.others handle fun member => apart (subset handle member)⟩

theorem handles (rewrites : Rewrites touched before after) : after.handles = before.handles :=
  handles_eq_of_plain_eq rewrites.plain

theorem find? (rewrites : Rewrites touched before after) {handle : Handle} {picture : Picture ι}
    (found : before.find? handle = some picture) :
    ∃ other, after.find? handle = some other ∧ other.plain = picture.plain :=
  find?_of_map_eq (find?_plain_eq rewrites.plain handle) found

theorem find?_origin (rewrites : Rewrites touched before after) {handle : Handle}
    {picture : Picture ι} (found : after.find? handle = some picture) :
    ∃ old, before.find? handle = some old ∧ picture.plain = old.plain := by
  obtain ⟨old, foundOld, same⟩ :=
    find?_of_map_eq (find?_plain_eq rewrites.plain.symm handle) found
  exact ⟨old, foundOld, same.symm⟩

theorem orderOf (rewrites : Rewrites touched before after) : after.orderOf = before.orderOf :=
  orderOf_eq_of_plain_eq rewrites.plain

theorem find?_other (rewrites : Rewrites touched before after) {handle : Handle}
    {picture : Picture ι} (found : before.find? handle = some picture) (apart : handle ∉ touched) :
    ∃ holds, after.find? handle = some (picture.withHolds holds) := by
  obtain ⟨other, foundOther, same⟩ := find?_of_map_eq (rewrites.others handle apart) found
  obtain ⟨holds, rfl⟩ := Picture.exists_of_bare_eq same
  exact ⟨holds, foundOther⟩

theorem find?_back (rewrites : Rewrites touched before after) {handle : Handle}
    {picture : Picture ι} (found : after.find? handle = some picture) (apart : handle ∉ touched) :
    ∃ holds, before.find? handle = some (picture.withHolds holds) := by
  obtain ⟨other, foundOther, same⟩ :=
    find?_of_map_eq (rewrites.others handle apart).symm found
  obtain ⟨holds, rfl⟩ := Picture.exists_of_bare_eq same
  exact ⟨holds, foundOther⟩

end Rewrites

theorem rewrites_adjust (handle : Handle) (change : Picture ι → Picture ι) (window : Window ι)
    (keeps : ∀ picture, (change picture).plain = picture.plain) :
    Rewrites [handle] window (window.adjust handle change) := by
  constructor
  · rw [adjust_eq_each, plain, plain, each_each]
    apply each_congr
    intro other picture _
    split
    · exact keeps picture
    · rfl
  · intro other apart
    rw [find?_adjust_of_ne (by simpa using apart)]

theorem rewrites_adjust_bare (handle : Handle) (change : Picture ι → Picture ι)
    (window : Window ι) (keeps : ∀ picture, (change picture).bare = picture.bare) :
    Rewrites [] window (window.adjust handle change) := by
  constructor
  · refine (rewrites_adjust handle change window fun picture => ?_).plain
    have same := congrArg Picture.plain (keeps picture)
    exact same
  · intro other _
    rw [find?_adjust]
    split
    · cases window.find? other with
      | none => rfl
      | some picture => simp [keeps]
    · rfl

theorem rewrites_of_bare_eq {before after : Window ι} (same : after.bare = before.bare) :
    Rewrites [] before after :=
  ⟨plain_eq_of_bare_eq same, fun handle _ => find?_bare_eq same handle⟩

theorem Exact.adjust {window : Window ι} {recent : List Handle} (exact : window.Exact recent)
    {handle : Handle} {change : Picture ι → Picture ι}
    (holds : ∀ picture, (change picture).holds = picture.holds)
    (claims : ∀ level picture, (change picture).claims level = picture.claims level) :
    (window.adjust handle change).Exact recent := by
  intro level other picture found
  have unchanged : (window.adjust handle change).claims level = window.claims level := by
    rw [adjust_eq_each]
    apply claims_each
    intro other picture
    split
    · exact claims level picture
    · rfl
  rw [unchanged]
  rw [find?_adjust] at found
  split at found
  · obtain ⟨old, foundOld, rfl⟩ := Option.map_eq_some_iff.mp found
    rw [holds]
    exact exact level other old foundOld
  · exact exact level other picture found

end Window

namespace Prediction

open Window

variable {ι : Type} {window : Window ι}

theorem plain_enter (roles : Roles) (target : Handle) (order : Nat) (picture : Picture ι) :
    (roles.enter target order picture).plain = picture.plain := by
  obtain ⟨reference, dpb, previous⟩ := roles
  by_cases earlier : order < picture.displayOrder <;>
    cases reference <;> cases dpb <;> cases previous <;>
      simp [Roles.enter, Roles.list, Roles.keep, Roles.follow, enterList, Picture.plain, earlier]

theorem addReference_tallies (roles : Roles)
    {handle target : Handle} {picture named : Picture ι} (found : window.find? handle = some picture)
    (foundTarget : window.find? target = some named)
    (holding : picture.released = ⟨false, false⟩)
    (lists : roles.reference = true → handle ≠ target ∧ listsFull picture = false)
    (dpb : roles.dpb = true → picture.dpb.length < maxDpbSize)
    (previous : roles.previous = true → picture.previous = none) :
    ∃ after holds, Runs (addReference handle target roles) window (.ok ()) after ∧
      Tallies window after ∧ Rewrites [handle] window after ∧
      after.find? handle = some ((roles.enter target named.displayOrder picture).withHolds holds) := by
  have entered := rewrites_adjust handle (roles.enter target named.displayOrder) window
    (plain_enter roles target named.displayOrder)
  have retained := rewrites_adjust_bare target (·.retain roles.count)
    (window.adjust handle (roles.enter target named.displayOrder)) fun _ => rfl
  have rewrites := entered.trans (retained.mono (by simp))
  obtain ⟨holds, foundAfter⟩ :=
    retained.find?_other (find?_adjust_self found _) List.not_mem_nil
  refine ⟨_, holds, addReference_runs found foundTarget lists dpb previous,
    fun recent accounted => ?_, rewrites, foundAfter⟩
  exact accounted.name found holding previous _

theorem enter_refer {roles : Roles} (noPrevious : roles.previous = false) {target : Handle}
    {order : Nat} {picture : Picture ι}
    (earlier : roles.reference = true → order < picture.displayOrder) :
    roles.enter target order picture =
      picture.refer (if roles.reference then [target] else [])
        (if roles.dpb then [target] else []) := by
  simp only [Roles.enter, Roles.list, Roles.keep, Roles.follow, enterList, noPrevious]
  cases wanted : roles.reference <;> cases kept : roles.dpb <;>
    simp [Picture.refer, wanted, earlier]

theorem forM_addReference_tallies {handle : Handle} (roles : Roles)
    (noPrevious : roles.previous = false) (targets : List Handle) {picture : Picture ι}
    (found : window.find? handle = some picture) (holding : picture.released = ⟨false, false⟩)
    (live : ∀ target ∈ targets, ∃ named, window.find? target = some named ∧
      (roles.reference = true → named.displayOrder < picture.displayOrder))
    (lists : roles.reference = true →
      picture.past.length + targets.length ≤ maxListReferences ∧ picture.future = [])
    (dpb : roles.dpb = true → picture.dpb.length + targets.length ≤ maxDpbSize) :
    ∃ after holds,
      Runs (targets.forM fun target => addReference handle target roles) window (.ok ()) after ∧
      Tallies window after ∧ Rewrites [handle] window after ∧
      after.find? handle = some ((picture.refer (if roles.reference then targets else [])
        (if roles.dpb then targets else [])).withHolds holds) := by
  induction targets generalizing window picture with
  | nil =>
      refine ⟨window, picture.holds, runs_forM_nil _ _, Tallies.refl _, Rewrites.refl _ _, ?_⟩
      simpa [Picture.withHolds, Picture.refer] using found
  | cons target rest ih =>
      obtain ⟨named, foundTarget, earlier⟩ := live target (List.mem_cons_self ..)
      have apart : roles.reference = true → handle ≠ target := by
        rintro wanted rfl
        have before := earlier wanted
        cases find?_unique found foundTarget
        omega
      have room : roles.reference = true → listsFull picture = false := by
        intro wanted
        obtain ⟨short, empty⟩ := lists wanted
        rw [List.length_cons] at short
        have longer : ¬maxListReferences ≤ picture.past.length := by omega
        have some : ¬maxListReferences ≤ 0 := by decide
        simp [listsFull, empty, longer, some]
      obtain ⟨middle, holds, runs, tallies, rewrites, foundMiddle⟩ :=
        addReference_tallies roles found foundTarget holding
          (fun wanted => ⟨apart wanted, room wanted⟩)
          (fun wanted => by have := dpb wanted; rw [List.length_cons] at this; omega)
          (fun wanted => by rw [noPrevious] at wanted; cases wanted)
      rw [enter_refer noPrevious earlier] at foundMiddle
      have liveMiddle : ∀ other ∈ rest, ∃ named, middle.find? other = some named ∧
          (roles.reference = true → named.displayOrder < picture.displayOrder) := by
        intro other member
        obtain ⟨old, foundOld, before⟩ := live other (List.mem_cons_of_mem _ member)
        obtain ⟨new, foundNew, plainEq⟩ := rewrites.find? foundOld
        have sameOrder : new.displayOrder = old.displayOrder :=
          (congrArg Picture.displayOrder plainEq :)
        exact ⟨new, foundNew, by rwa [sameOrder]⟩
      obtain ⟨after, last, tail, talliesTail, later, foundLast⟩ :=
        ih foundMiddle holding liveMiddle
          (by
            intro wanted
            obtain ⟨short, empty⟩ := lists wanted
            refine ⟨?_, empty⟩
            simp only [Picture.withHolds, Picture.refer, if_pos wanted, List.length_append,
              List.length_cons, List.length_nil] at short ⊢
            omega)
          (by
            intro wanted
            have short := dpb wanted
            simp only [Picture.withHolds, Picture.refer, if_pos wanted, List.length_append,
              List.length_cons, List.length_nil] at short ⊢
            omega)
      refine ⟨after, last, ?_, tallies.trans talliesTail, rewrites.trans later, ?_⟩
      · refine Runs.forM_cons ?_ tail
        exact runs
      · rw [foundLast]
        cases roles.reference <;> cases roles.dpb <;> simp [Picture.withHolds, Picture.refer]

end Prediction

end VideoSchedule

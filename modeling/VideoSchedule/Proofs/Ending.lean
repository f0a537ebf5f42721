import VideoSchedule.Proofs.Output

/-!
The end of a session. At the end of the stream the past pictures are let go of and every picture
retires; a session that is given up waits for what is in flight and frees whatever is left.
-/

namespace VideoSchedule

open VideoSchedule.Action Window

section

variable {ι : Type} {window : Window ι} {recent : List Handle}

theorem Window.Tidy.letGo (tidy : window.Tidy recent) : (window.lower .direct recent).Tidy [] := by
  have whole : window.Exact (recent ++ []) := by simpa using tidy.exact
  exact tidy.of_rewrites (rewrites_of_bare_eq (bare_lower recent window))
    (PastPictures.exact_lower whole) (by simp)

theorem Retirement.Retirable.letGo (retirable : Retirement.Retirable recent window) :
    Retirement.Retirable [] (window.lower .direct recent) := by
  have original : ∀ {handle : Handle} {picture : Picture ι},
      (window.lower .direct recent).find? handle = some picture →
        ∃ old, window.find? handle = some old ∧ picture.bare = old.bare := by
    intro handle picture found
    obtain ⟨old, foundOld, same⟩ :=
      find?_of_map_eq (find?_bare_eq (bare_lower recent window).symm handle) found
    exact ⟨old, foundOld, same.symm⟩
  constructor
  · intro handle picture found complete
    obtain ⟨old, foundOld, same⟩ := original found
    have typeEq : picture.type = old.type := (congrArg Picture.type same :)
    have previousEq : picture.previous = old.previous := (congrArg Picture.previous same :)
    rw [typeEq, previousEq]
    exact retirable.follows handle old foundOld ((congrArg Picture.complete same :).symm.trans complete)
  · simp
  · intro handle picture isTail found complete
    obtain ⟨old, foundOld, same⟩ := original found
    have heldEq : picture.held = old.held := (congrArg Picture.held same :)
    rw [tail?_eq, handles_lower] at isTail
    rw [heldEq]
    exact retirable.tail handle old isTail foundOld
      ((congrArg Picture.complete same :).symm.trans complete)

theorem Window.pictures_eq_nil (empty : window.handles = []) : window.pictures = [] := by
  rw [handles_eq, List.map_eq_nil_iff] at empty
  rw [pictures, empty, List.map_nil]

theorem Window.images_eq_nil (empty : window.handles = []) : window.images = [] := by
  rw [images, pictures_eq_nil empty]
  rfl

theorem Retirement.dropAll_ok (targets : List Handle)
    (once : targets.Nodup) (live : ∀ target ∈ targets, target ∈ window.handles) :
    ∃ gone after, Runs (dropAll targets) window (.ok gone) after ∧
      window.pictures.Perm (gone ++ after.pictures) ∧
      after.handles = window.handles.filter fun handle => !targets.contains handle := by
  induction targets generalizing window with
  | nil => exact ⟨[], window, runs_pure _ _, List.Perm.refl _, by simp⟩
  | cons target rest ih =>
      obtain ⟨picture, found⟩ := exists_of_mem_handles (live target (List.mem_cons_self ..))
      rw [List.nodup_cons] at once
      have remaining : ∀ other ∈ rest, other ∈ (window.erase target).handles := by
        intro other member
        rw [handles_erase, List.mem_filter, bne_iff_ne]
        exact ⟨live other (List.mem_cons_of_mem _ member), fun same => once.1 (same ▸ member)⟩
      obtain ⟨gone, after, runs, pictures, handlesEq⟩ := ih once.2 remaining
      refine ⟨picture :: gone, after, ?_, ?_, ?_⟩
      · have warning : Runs (Action.when (picture.complete = false)
            (note (.droppedUnencoded picture.displayOrder))) (window.erase target) (.ok ())
            (window.erase target) := by
          by_cases complete : picture.complete = false
          · exact runs_when_true complete (runs_note rfl _)
          · exact runs_when_false complete _
        exact (remove_runs found).bind (warning.bind (runs.bind (runs_pure _ _)))
      · exact (pictures_perm_erase found).trans (pictures.cons picture)
      · rw [handlesEq, handles_erase, List.filter_filter]
        refine List.filter_congr fun handle _ => ?_
        by_cases same : handle = target <;> simp [same]

theorem Retirement.clearAll_ok :
    ∃ gone after, Runs clearAll window (.ok gone) after ∧ window.pictures.Perm gone ∧
      after.handles = [] := by
  obtain ⟨gone, after, runs, pictures, handlesEq⟩ :=
    dropAll_ok window.handles window.handles_nodup fun _ member => member
  have empty : after.handles = [] := by
    rw [handlesEq, List.filter_eq_nil_iff]
    simp
  refine ⟨gone, after, (runs_get _).bind runs, ?_, empty⟩
  rwa [pictures_eq_nil empty, List.append_nil] at pictures

end

namespace Encoder

variable {B : Backend} {ledger : Ledger B} {encoder : Encoder B}
  {flight : List (Handle × B.Promise)}

theorem Core.complete_of_issued (core : encoder.Core ledger [] []) {handle : Handle}
    {picture : Picture B.Image} (found : encoder.window.find? handle = some picture)
    (issued : picture.issued = true) : picture.complete = true := by
  cases complete : picture.complete with
  | true => rfl
  | false => simpa using (core.flying handle).mpr ⟨picture, found, issued, complete⟩

theorem Core.finishing (core : encoder.Core ledger [] [])
    (issued : ∀ handle picture, encoder.window.find? handle = some picture →
      picture.issued = true) :
    ∃ gone after,
      Runs Scheduler.releasePast (encoder.scheduler, encoder.window) (.ok ())
        ({ encoder.scheduler with past := { encoder.scheduler.past with recent := [] } },
          encoder.window.lower .direct encoder.scheduler.past.recent) ∧
      Runs (Retirement.clear true) (encoder.window.lower .direct encoder.scheduler.past.recent)
        (.ok gone) after ∧
      (encoder.window.pictures.map Picture.core).Perm (gone.map Picture.core) ∧
      after.handles = [] ∧ Runs Retirement.clearAll after (.ok []) after := by
  obtain ⟨laid, fresh, arranged⟩ := core.arranged
  have bare : (encoder.window.lower .direct encoder.scheduler.past.recent).bare =
      encoder.window.bare := bare_lower _ _
  have complete : ∀ handle picture,
      (encoder.window.lower .direct encoder.scheduler.past.recent).find? handle = some picture →
        picture.complete = true := by
    intro handle picture found
    obtain ⟨old, foundOld, same⟩ := find?_of_map_eq (find?_bare_eq bare.symm handle) found
    have done := core.complete_of_issued foundOld (issued handle old foundOld)
    exact (congrArg Picture.complete same :).symm.trans done
  have releasing : Runs Scheduler.releasePast (encoder.scheduler, encoder.window) (.ok ())
      ({ encoder.scheduler with past := { encoder.scheduler.past with recent := [] } },
        encoder.window.lower .direct encoder.scheduler.past.recent) :=
    Scheduler.onPast_runs (PastPictures.releaseRecent_runs core.tidy.exact fun recent member => by
      obtain ⟨_, _, found, _⟩ := arranged.recents recent member
      exact mem_handles_of_find? found)
  obtain ⟨gone, after, clearing, cleared, empty⟩ := Retirement.clear_final_ok core.tidy.letGo
    (arranged.retirable core.tidy).letGo complete
  refine ⟨gone, after, releasing, clearing, ?_, empty, Retirement.clearAll_empty empty⟩
  have moved := cleared.pictures
  rw [pictures_eq_nil empty, List.map_nil, List.append_nil] at moved
  rwa [pictures_map_eq_of_bare_eq bare Picture.core fun _ => rfl] at moved

inductive Finishes (before : Encoder B) : Encoder B → Prop where
  | retired {gone : List (Picture B.Image)} {window : Window B.Image}
      (pictures : (before.window.pictures.map Picture.core).Perm (gone.map Picture.core))
      (empty : window.handles = []) :
      Finishes before (({ before with
        scheduler := { before.scheduler with past := { before.scheduler.past with recent := [] } } } :
          Encoder B).discard gone window)

theorem finishStream_ok (core : encoder.Core ledger [] [])
    (issued : ∀ handle picture, encoder.window.find? handle = some picture →
      picture.issued = true) :
    ∃ after, Runs finishStream encoder (.ok ()) after ∧ Finishes encoder after ∧
      ledger.Holds after.backend [] [] := by
  obtain ⟨gone, window, releasing, clearing, pictures, empty, dropping⟩ := core.finishing issued
  have freeing := freeAll_runs gone { encoder with
    scheduler := { encoder.scheduler with past := { encoder.scheduler.past with recent := [] } }
    window }
  refine ⟨_, ?_, .retired pictures empty, ?_⟩
  · exact (onSchedule_runs releasing).bind ((onWindow_runs (by exact clearing)).bind
      (freeing.bind ((onWindow_runs (by exact dropping)).bind (runs_forM_nil _ _))))
  · obtain ⟨records, holds, carries⟩ := core.records
    cases carries
    refine holds_freed gone (ledger.perm holds ?_) (by simp)
    have images := pictures.filterMap Picture.image
    rwa [filterMap_core, filterMap_core, ← List.append_nil (gone.filterMap _)] at images

/-- Backends that were waited for and got images back, and were asked for nothing else. -/
inductive Winds (start : B.State) : B.State → Prop where
  | refl : Winds start start
  | sync {backend : B.State} (winds : Winds start backend) (promise : B.Promise) :
      Winds start (B.sync promise backend).2
  | free {backend : B.State} (winds : Winds start backend) (image : B.Image) :
      Winds start (B.free image backend)

theorem Winds.returned {start backend : B.State} (winds : Winds start backend)
    (picture : Picture B.Image) : Winds start (giveBack picture backend) := by
  rw [giveBack]
  cases picture.image with
  | none => exact winds
  | some image => exact winds.free image

theorem Winds.freed {start backend : B.State} (winds : Winds start backend)
    (gone : List (Picture B.Image)) : Winds start (freed backend gone) := by
  induction gone generalizing backend with
  | nil => exact winds
  | cons picture rest ih => exact ih (winds.returned picture)

theorem queue_of_empty (queued : encoder.queue.promises = []) :
    { encoder.queue with promises := [] } = encoder.queue := by
  rw [← queued]

theorem awaitAll_ok (core : encoder.Core ledger [] flight)
    (queued : encoder.queue.promises = flight) {start : B.State}
    (winds : Winds start encoder.backend) :
    ∃ window backend, Runs (awaitAll flight) encoder (.ok ())
        { encoder with window, backend, queue := { encoder.queue with promises := [] } } ∧
      ({ encoder with
        window, backend, queue := { encoder.queue with promises := [] } } : Encoder B).Core ledger
          [] [] ∧ Winds start backend := by
  induction flight generalizing encoder with
  | nil =>
      refine ⟨encoder.window, encoder.backend, ?_, core.congr rfl rfl rfl rfl rfl core.ended, winds⟩
      rw [queue_of_empty queued]
      exact runs_pure _ _
  | cons front rest ih =>
      obtain ⟨handle, promise⟩ := front
      have landed := core.sync.finish advances_finish fun _ => rfl
      have coreNext : ({ encoder with
          backend := (B.sync promise encoder.backend).2
          queue := { encoder.queue with promises := rest }
          window := encoder.window.adjust handle finish } : Encoder B).Core ledger [] rest :=
        landed.congr rfl rfl rfl rfl rfl core.ended
      obtain ⟨window, backend, runs, coreAfter, windsAfter⟩ := ih coreNext rfl (winds.sync promise)
      exact ⟨window, backend, (onBackend_runs _ _).bind ((runs_modify _ _).bind runs), coreAfter,
        windsAfter⟩

theorem release_ok (sound : encoder.Sound ledger) :
    ∃ window backend failedPictures, Runs release encoder (.ok ())
        { encoder with
          window, backend, failedPictures
          queue := { encoder.queue with promises := [] }
          waiting := [] } ∧
      (window.handles = [] ∧ Winds encoder.backend backend) ∧ ledger.Holds backend [] [] := by
  rcases sound with running | ended
  · obtain ⟨window, backend, waiting, core, winds⟩ := awaitAll_ok running.core rfl .refl
    obtain ⟨gone, after, dropping, pictures, empty⟩ := Retirement.clearAll_ok
    have freeing := freeAll_runs gone { encoder with
      window := after, backend, queue := { encoder.queue with promises := [] } }
    refine ⟨after, freed backend gone, encoder.failedPictures + gone.countP Picture.failed, ?_,
      ⟨empty, winds.freed gone⟩, ?_⟩
    · exact (runs_get _).bind (waiting.bind ((onWindow_runs (by exact dropping)).bind
        (freeing.bind (runs_modify _ _))))
    · obtain ⟨records, holds, carries⟩ := core.records
      cases carries
      refine holds_freed gone (ledger.perm holds ?_) (by simp)
      rw [List.append_nil]
      exact pictures.filterMap Picture.image
  · refine ⟨encoder.window, encoder.backend, encoder.failedPictures, ?_, ⟨ended.window, .refl⟩,
      ended.records⟩
    rw [queue_of_empty ended.queue]
    refine (runs_get _).bind ?_
    rw [ended.queue]
    exact (runs_pure _ _).bind ((onWindow_runs (Retirement.clearAll_empty ended.window)).bind
      ((runs_forM_nil _ _).bind (runs_modify _ _)))

end Encoder

end VideoSchedule

import VideoSchedule.Proofs.Refusals
import VideoSchedule.Proofs.Reorder

/-!
A script turn by turn. Every turn is an anchor with the B-pictures before it. What holds of all
pictures of a script is proved for the turns that begin at a cursor which the script reaches.
-/

namespace VideoSchedule

namespace Gop

def Same (first second : Gop) : Prop :=
  first = { second with
    keysSinceIdr := first.keysSinceIdr
    picturesSinceKey := first.picturesSinceKey }

theorem Same.trans {first second third : Gop} (one : first.Same second) (two : second.Same third) :
    first.Same third := by
  have through : first = { second with
      keysSinceIdr := first.keysSinceIdr
      picturesSinceKey := first.picturesSinceKey } := one
  rw [two] at through
  exact through

theorem Same.bPerGroup {first second : Gop} (same : first.Same second) :
    first.bPerGroup = second.bPerGroup := by
  unfold Same at same
  rw [same]

theorem Same.gopsPerIdr {first second : Gop} (same : first.Same second) :
    first.gopsPerIdr = second.gopsPerIdr := by
  unfold Same at same
  rw [same]

theorem Same.closed {first second : Gop} (same : first.Same second) :
    first.closed = second.closed := by
  unfold Same at same
  rw [same]

theorem Same.multiReference {first second : Gop} (same : first.Same second) :
    first.multiReference = second.multiReference := by
  unfold Same at same
  rw [same]

theorem Same.size {first second : Gop} (same : first.Same second) : first.size = second.size := by
  unfold Same at same
  rw [same]

theorem Same.maxBDepth {first second : Gop} (same : first.Same second) :
    first.maxBDepth = second.maxBDepth := by
  unfold Same at same
  rw [same]

theorem same_nextTop (gop : Gop) (forced : Bool) (skipped : Nat) :
    (gop.nextTop forced skipped).2.Same gop := by
  unfold nextTop
  split
  · rfl
  split
  · split <;> rfl
  · rfl

end Gop

namespace Cursor

open Hierarchy

variable {origin cursor : Cursor} {gop : Gop} {flags left : List Bool} {done : List Outline}
  {waiting : List Nat} {waits skipped place : Nat} {forced : Bool} {outline : Outline}

/-- With `waits` pictures that wait already, `skipped` more come in before the next anchor. Nothing
stops before it; there something does, or the stream ends. -/
structure Closes (cursor : Cursor) (waits : Nat) (flags : List Bool) (skipped : Nat)
    (forced : Bool) : Prop where
  listed : flags[skipped]? = some forced
  goesOn : ∀ index flag, index < skipped → flags[index]? = some flag →
    ¬cursor.Stops (waits + index) flag (flags.drop (index + 1))
  ends : cursor.Stops (waits + skipped) forced (flags.drop (skipped + 1)) ∨
    flags.length = skipped + 1

def turn (cursor : Cursor) (skipped : Nat) (forced : Bool) : List Outline :=
  cursor.group (List.range' cursor.next skipped) (cursor.next + skipped) forced

def after (cursor : Cursor) (skipped : Nat) (forced : Bool) : Cursor :=
  cursor.pass (List.range' cursor.next skipped) (cursor.next + skipped) forced

def lead (cursor : Cursor) (skipped : Nat) (forced : Bool) : Outline :=
  cursor.top (List.range' cursor.next skipped) (cursor.next + skipped) forced

theorem type_lead (cursor : Cursor) (skipped : Nat) (forced : Bool) :
    (cursor.lead skipped forced).type = (cursor.gop.nextTop forced skipped).1 := by
  rw [lead, top, type, List.length_range']

theorem gop_after (cursor : Cursor) (skipped : Nat) (forced : Bool) :
    (cursor.after skipped forced).gop = (cursor.gop.nextTop forced skipped).2 := by
  rw [after, pass, List.length_range']

theorem order_lead (cursor : Cursor) (skipped : Nat) (forced : Bool) :
    (cursor.lead skipped forced).displayOrder = cursor.next + skipped := rfl

theorem depth_lead (cursor : Cursor) (skipped : Nat) (forced : Bool) :
    (cursor.lead skipped forced).depth = 0 := rfl

theorem next_after (cursor : Cursor) (skipped : Nat) (forced : Bool) :
    (cursor.after skipped forced).next = cursor.next + skipped + 1 := rfl

theorem script_splits (some : flags ≠ []) :
    ∃ skipped forced, cursor.Closes waiting.length flags skipped forced ∧
      script flags cursor waiting =
        cursor.group (waiting ++ List.range' cursor.next skipped) (cursor.next + skipped) forced ++
          script (flags.drop (skipped + 1))
            (cursor.pass (waiting ++ List.range' cursor.next skipped) (cursor.next + skipped) forced)
            [] := by
  induction flags generalizing cursor waiting with
  | nil => exact absurd rfl some
  | cons forced rest ih =>
      by_cases stops : cursor.Stops waiting.length forced rest
      · refine ⟨0, forced, ⟨rfl, by omega, Or.inl stops⟩, ?_⟩
        rw [script_of_stops stops]
        simp
      · rw [script_of_continues stops]
        cases rest with
        | nil =>
            -- the stream ends here, and its last picture is an anchor that nobody asked for
            have unforced : forced = false := by
              rw [Stops, not_or] at stops
              simpa using stops.1
            refine ⟨0, forced, ⟨rfl, by omega, Or.inr rfl⟩, ?_⟩
            simp [script, unforced, group, top, type, targets, marks]
        | cons next rest =>
            obtain ⟨skipped, last, closes, split⟩ :=
              @ih { cursor with next := cursor.next + 1 } (waiting ++ [cursor.next])
                (List.cons_ne_nil _ _)
            rw [List.length_append, List.length_singleton] at closes
            have shifted : cursor.next + 1 + skipped = cursor.next + (skipped + 1) := by omega
            refine ⟨skipped + 1, last, ⟨closes.listed, ?_, ?_⟩, ?_⟩
            · intro index flag below listed
              cases index with
              | zero =>
                  cases listed
                  exact stops
              | succ index =>
                  have goesOn := closes.goesOn index flag (by omega) listed
                  rwa [Nat.add_assoc, Nat.add_comm 1] at goesOn
            · have ends := closes.ends
              rw [Nat.add_assoc, Nat.add_comm 1] at ends
              exact ends.imp id (congrArg (· + 1))
            · rw [split]
              simp only [List.append_assoc, List.singleton_append, shifted]
              rw [List.range'_succ]
              rfl

theorem Closes.le {first second : Nat} {other : Bool}
    (closes : cursor.Closes waits flags first forced)
    (later : cursor.Closes waits flags second other) : second ≤ first := by
  apply Nat.le_of_not_lt
  intro before
  have inside := (List.getElem?_eq_some_iff.mp later.listed).1
  rcases closes.ends with stops | last
  · exact later.goesOn first forced before closes.listed stops
  · omega

theorem Closes.script (closes : cursor.Closes 0 flags skipped forced) :
    script flags cursor [] = cursor.turn skipped forced ++
      script (flags.drop (skipped + 1)) (cursor.after skipped forced) [] := by
  have some : flags ≠ [] := by
    rintro rfl
    cases closes.listed
  obtain ⟨other, flag, closesToo, split⟩ := @script_splits cursor flags [] some
  have same : other = skipped := Nat.le_antisymm (closes.le closesToo) (closesToo.le closes)
  subst same
  cases closes.listed.symm.trans closesToo.listed
  exact split

/-- The cursors between two turns of a script, with what was scheduled until then and the frames that
are left. -/
inductive Reaches (origin : Cursor) (flags : List Bool) :
    List Outline → Cursor → List Bool → Prop where
  | start : Reaches origin flags [] origin flags
  | turn {done : List Outline} {cursor : Cursor} {left : List Bool} {skipped : Nat} {forced : Bool}
      (reaches : Reaches origin flags done cursor left)
      (closes : cursor.Closes 0 left skipped forced) :
      Reaches origin flags (done ++ cursor.turn skipped forced) (cursor.after skipped forced)
        (left.drop (skipped + 1))

theorem Reaches.script (reaches : Reaches origin flags done cursor left) :
    script flags origin [] = done ++ script left cursor [] := by
  induction reaches with
  | start => rfl
  | turn _ closes ih => rw [ih, closes.script, List.append_assoc]

theorem Reaches.exists_turn (reaches : Reaches origin flags done cursor left)
    (later : done.length ≤ place) (listed : (Cursor.script flags origin [])[place]? = some outline) :
    ∃ done cursor left skipped forced, Reaches origin flags done cursor left ∧
      cursor.Closes 0 left skipped forced ∧ done.length ≤ place ∧
      (cursor.turn skipped forced)[place - done.length]? = some outline := by
  generalize countEq : left.length = count
  induction count using Nat.strongRecOn generalizing done cursor left with
  | ind count ih =>
      rw [reaches.script, List.getElem?_append_right later] at listed
      have some : left ≠ [] := by
        rintro rfl
        simp [Cursor.script] at listed
      obtain ⟨skipped, forced, closes, split⟩ := @script_splits cursor left [] some
      have inside := (List.getElem?_eq_some_iff.mp closes.listed).1
      by_cases here : place - done.length < (cursor.turn skipped forced).length
      · refine ⟨done, cursor, left, skipped, forced, reaches, closes, later, ?_⟩
        rw [split] at listed
        rwa [← List.getElem?_append_left here]
      · refine ih (left.drop (skipped + 1)).length ?_ (reaches.turn closes) ?_ rfl
        · rw [List.length_drop]
          omega
        · rw [List.length_append]
          omega

theorem exists_turn (listed : (script flags origin [])[place]? = some outline) :
    ∃ done cursor left skipped forced, Reaches origin flags done cursor left ∧
      cursor.Closes 0 left skipped forced ∧ done.length ≤ place ∧
      (cursor.turn skipped forced)[place - done.length]? = some outline :=
  Reaches.exists_turn .start (Nat.zero_le _) listed

theorem Closes.few (closes : cursor.Closes 0 flags skipped forced) :
    skipped ≤ cursor.gop.bPerGroup := by
  apply Nat.le_of_not_lt
  intro more
  have inside := (List.getElem?_eq_some_iff.mp closes.listed).1
  refine closes.goesOn cursor.gop.bPerGroup _ more
    (List.getElem?_eq_getElem (Nat.lt_trans more inside)) (Or.inr (Or.inl ?_))
  rw [Nat.zero_add]

theorem Closes.forced_first (closes : cursor.Closes 0 flags skipped forced)
    (first : flags.headD true = true) : skipped = 0 ∧ forced = true := by
  have listed : flags[0]? = some true := by
    cases flags with
    | nil => cases closes.listed
    | cons flag rest => exact congrArg some first
  cases skipped with
  | zero => exact ⟨rfl, Option.some.inj (closes.listed.symm.trans listed)⟩
  | succ skipped => exact absurd (Or.inl rfl) (closes.goesOn 0 true (Nat.succ_pos _) listed)

/-- How a cursor stands between two turns: the pictures done are the first ones in display order, and
the last of those is the anchor. -/
structure Aligned (gop : Gop) (flags : List Bool) (done : List Outline) (cursor : Cursor)
    (left : List Bool) : Prop where
  same : cursor.gop.Same gop
  next : cursor.next = done.length
  left : left = flags.drop done.length
  anchored : cursor.anchor = none ∧ done = [] ∨ ∃ top ∈ done, top.depth = 0 ∧
    top.displayOrder + 1 = done.length ∧ cursor.anchor = some top.displayOrder

theorem Aligned.forced_first (aligned : Aligned gop flags done cursor left)
    (closes : cursor.Closes 0 left skipped forced) (first : flags.headD true = true)
    (nothing : done = []) : skipped = 0 ∧ forced = true := by
  have all := aligned.left
  rw [nothing, List.length_nil, List.drop_zero] at all
  exact closes.forced_first (all.symm ▸ first)

theorem Aligned.opens (aligned : Aligned gop flags done cursor left)
    (closes : cursor.Closes 0 left skipped forced) (first : flags.headD true = true)
    (none : cursor.anchor = none) : skipped = 0 := by
  rcases aligned.anchored with ⟨_, nothing⟩ | ⟨top, _, _, _, anchor⟩
  · exact (aligned.forced_first closes first nothing).1
  · rw [anchor] at none
    cases none

theorem length_turn (opens : cursor.anchor = none → skipped = 0) (forced : Bool) :
    (cursor.turn skipped forced).length = skipped + 1 := by
  rw [turn, group, List.length_cons, List.length_map, marks]
  unfold groupMarks
  cases anchor : cursor.anchor with
  | none => rw [opens anchor]; rfl
  | some start => rw [length_chart, List.length_range']

theorem marks_deep (cursor : Cursor) (waiting : List Nat) (order : Nat) :
    ∀ mark ∈ cursor.marks waiting order, 0 < mark.depth := by
  intro mark member
  unfold marks groupMarks at member
  split at member
  next => cases member
  next => exact depth_chart _ _ _ _ _ _ mark member

theorem turn_cases {index : Nat} (listed : (cursor.turn skipped forced)[index]? = some outline) :
    index = 0 ∧ outline = cursor.lead skipped forced ∨
      0 < index ∧ outline.type = .bidirectional ∧ 0 < outline.depth ∧
        cursor.next ≤ outline.displayOrder ∧ outline.displayOrder < cursor.next + skipped := by
  cases index with
  | zero =>
      cases listed
      exact Or.inl ⟨rfl, rfl⟩
  | succ index =>
      rw [turn, group, List.getElem?_cons_succ, List.getElem?_map, Option.map_eq_some_iff] at listed
      obtain ⟨mark, listed, rfl⟩ := listed
      have member := List.mem_of_getElem? listed
      have inside := List.mem_range'_1.mp (groupMarks_inside _ _ _ _ mark member)
      exact Or.inr ⟨Nat.succ_pos _, rfl, marks_deep _ _ _ mark member, inside⟩

theorem mem_turn (member : outline ∈ cursor.turn skipped forced) :
    outline = cursor.lead skipped forced ∨ outline.type = .bidirectional ∧ 0 < outline.depth ∧
      cursor.next ≤ outline.displayOrder ∧ outline.displayOrder < cursor.next + skipped := by
  obtain ⟨index, listed⟩ := List.mem_iff_getElem?.mp member
  exact (turn_cases listed).imp And.right And.right

theorem turn_upTo (member : outline ∈ cursor.turn skipped forced) :
    cursor.next ≤ outline.displayOrder ∧ outline.displayOrder ≤ cursor.next + skipped := by
  rcases mem_turn member with rfl | ⟨_, _, after, before⟩
  · exact ⟨Nat.le_add_right _ _, Nat.le_refl _⟩
  · exact ⟨after, Nat.le_of_lt before⟩

theorem script_later (member : outline ∈ script flags cursor []) :
    cursor.next ≤ outline.displayOrder := by
  have listed := (orders_script_subperm cursor [] flags).subset (List.mem_map_of_mem member)
  exact (List.mem_range'_1.mp listed).1

theorem Reaches.inside (reaches : Reaches origin flags done cursor left) :
    ∀ outline ∈ done, outline.displayOrder < cursor.next := by
  induction reaches with
  | start => simp
  | @turn done cursor left skipped forced _ _ ih =>
      intro outline member
      rw [next_after]
      rcases List.mem_append.mp member with before | here
      · have inside := ih outline before
        omega
      · have upTo := (turn_upTo here).2
        omega

theorem Reaches.aligned (reaches : Reaches { gop } flags done cursor left)
    (first : flags.headD true = true) : Aligned gop flags done cursor left := by
  induction reaches with
  | start => exact ⟨rfl, rfl, rfl, Or.inl ⟨rfl, rfl⟩⟩
  | @turn done cursor left skipped forced _ closes ih =>
      have length := length_turn (ih.opens closes first) forced
      refine ⟨?_, ?_, ?_, Or.inr ⟨_, List.mem_append_right _ (List.mem_cons_self ..), rfl, ?_, rfl⟩⟩
      · exact (Gop.same_nextTop ..).trans ih.same
      · rw [List.length_append, length, ← ih.next]
        rfl
      · rw [List.length_append, length, ih.left, List.drop_drop]
      · rw [List.length_append, length, ← ih.next]
        rfl

/-- A turn of a script, of which the pictures before it were issued and maybe some of its own. -/
structure Stage (gop : Gop) (flags : List Bool) (outlines done : List Outline) (cursor : Cursor)
    (left : List Bool) (skipped : Nat) (forced : Bool) : Prop where
  reaches : Reaches { gop } flags done cursor left
  closes : cursor.Closes 0 left skipped forced
  first : flags.headD true = true
  begins : outlines <+: Cursor.script flags { gop } []
  far : done.length ≤ outlines.length

variable {outlines : List Outline}

theorem exists_stage (begins : outlines <+: script flags { gop } [])
    (first : flags.headD true = true) (listed : outlines[place]? = some outline) :
    ∃ done cursor left skipped forced, Stage gop flags outlines done cursor left skipped forced ∧
      done.length ≤ place ∧ (cursor.turn skipped forced)[place - done.length]? = some outline := by
  have far := (List.getElem?_eq_some_iff.mp listed).1
  obtain ⟨rest, split⟩ := begins
  obtain ⟨done, cursor, left, skipped, forced, reaches, closes, within, here⟩ :=
    exists_turn (split ▸ getElem?_append_of_eq_some listed)
  exact ⟨done, cursor, left, skipped, forced,
    ⟨reaches, closes, first, ⟨rest, split⟩, by omega⟩, within, here⟩

section

variable (stage : Stage gop flags outlines done cursor left skipped forced)
include stage

theorem Stage.aligned : Aligned gop flags done cursor left := stage.reaches.aligned stage.first

theorem Stage.opens : cursor.anchor = none → skipped = 0 :=
  stage.aligned.opens stage.closes stage.first

theorem Stage.forced_first (nothing : done = []) : skipped = 0 ∧ forced = true :=
  stage.aligned.forced_first stage.closes stage.first nothing

theorem Stage.split : ∃ more, outlines = done ++ more ∧ ∀ other ∈ more,
    other ∈ cursor.turn skipped forced ∨ cursor.next + skipped < other.displayOrder := by
  have begins := stage.begins
  rw [stage.reaches.script, stage.closes.script] at begins
  obtain ⟨more, rfl⟩ := List.prefix_of_prefix_length_le (List.prefix_append _ _) begins stage.far
  refine ⟨more, rfl, fun other member => ?_⟩
  have listed := ((List.prefix_append_right_inj done).mp begins).subset member
  exact (List.mem_append.mp listed).imp id script_later

theorem Stage.listed (listed : outlines[done.length + place]? = some outline)
    (inside : place < (cursor.turn skipped forced).length) :
    (cursor.turn skipped forced)[place]? = some outline := by
  obtain ⟨rest, script⟩ := stage.begins
  have told : (outlines ++ rest)[done.length + place]? = some outline :=
    getElem?_append_of_eq_some listed
  rwa [script, stage.reaches.script, stage.closes.script,
    List.getElem?_append_right (Nat.le_add_right _ _), Nat.add_sub_cancel_left,
    List.getElem?_append_left inside] at told

end

end Cursor

end VideoSchedule

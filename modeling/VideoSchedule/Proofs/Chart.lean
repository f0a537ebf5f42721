import VideoSchedule.Proofs.Layout

/-!
Charts of B-pictures. A chart is a plan together with the pictures that are kept for the sake of the
future reference, over names of any kind. Whatever a picture of a chart needs is kept by the one
before it, and in display order the first one whose references were all issued is the next one of the
chart.
-/

namespace VideoSchedule

/-- The place of a B-picture in its group. `chain` are the pictures kept for the sake of `future`. -/
structure Mark (α : Type) where
  picture : α
  depth : Nat
  isReference : Bool
  past : α
  future : α
  chain : List α
deriving DecidableEq, Repr

namespace Mark

variable {α β : Type}

def map (rename : α → β) (mark : Mark α) : Mark β where
  picture := rename mark.picture
  depth := mark.depth
  isReference := mark.isReference
  past := rename mark.past
  future := rename mark.future
  chain := mark.chain.map rename

def needs (mark : Mark α) : List α := mark.past :: mark.future :: mark.chain

def leaves (mark : Mark α) : List α :=
  mark.needs ++ if mark.isReference then [mark.picture] else []

def placement (mark : Mark Handle) : Placement where
  picture := mark.picture
  depth := mark.depth
  isReference := mark.isReference
  past := mark.past
  future := mark.future

def last (previous : α) : List (Mark α) → α
  | [] => previous
  | mark :: rest => last (if mark.isReference then mark.picture else previous) rest

theorem last_map (rename : α → β) (previous : α) (marks : List (Mark α)) :
    last (rename previous) (marks.map (map rename)) = rename (last previous marks) := by
  induction marks generalizing previous with
  | nil => rfl
  | cons mark rest ih =>
      rw [List.map_cons, last, last, ← ih]
      cases reference : mark.isReference <;> simp [map, reference]

theorem last_append (previous : α) (first second : List (Mark α)) :
    last previous (first ++ second) = last (last previous first) second := by
  induction first generalizing previous with
  | nil => rfl
  | cons mark rest ih => exact ih _

theorem last_cases (previous : α) (marks : List (Mark α)) :
    marks.any isReference = false ∧ last previous marks = previous ∨
      marks.any isReference = true ∧
        ∃ mark ∈ marks, mark.isReference = true ∧ mark.picture = last previous marks := by
  induction marks generalizing previous with
  | nil => exact Or.inl ⟨rfl, rfl⟩
  | cons mark rest ih =>
      rw [last, List.any_cons]
      cases reference : mark.isReference with
      | false =>
          refine (ih previous).imp id ?_
          rintro ⟨some, other, member, others⟩
          exact ⟨some, other, List.mem_cons_of_mem _ member, others⟩
      | true =>
          refine Or.inr ⟨rfl, ?_⟩
          rcases ih mark.picture with ⟨_, same⟩ | ⟨_, other, member, others⟩
          · exact ⟨mark, List.mem_cons_self .., reference, same.symm⟩
          · exact ⟨other, List.mem_cons_of_mem _ member, others⟩

theorem map_congr {first second : α → β} {mark : Mark α}
    (same : ∀ name ∈ mark.picture :: mark.needs, first name = second name) :
    mark.map first = mark.map second := by
  have chainEq : mark.chain.map first = mark.chain.map second :=
    List.map_congr_left fun name member => same name (by simp [needs, member])
  simp only [map, chainEq, same mark.picture (by simp), same mark.past (by simp [needs]),
    same mark.future (by simp [needs])]

structure Describes {ι : Type} (mark : Mark Handle) (picture : Picture ι) : Prop where
  type : picture.type = .bidirectional
  depth : picture.depth = mark.depth
  isReference : picture.isReference = mark.isReference
  past : picture.past = [mark.past]
  future : picture.future = [mark.future]
  dpb : picture.dpb = (if mark.isReference then [mark.picture] else []) ++ mark.needs

theorem Describes.withHolds {ι : Type} {mark : Mark Handle} {picture : Picture ι}
    (describes : mark.Describes picture) (holds : PerLevel Nat) :
    mark.Describes (picture.withHolds holds) :=
  ⟨describes.type, describes.depth, describes.isReference, describes.past, describes.future,
    describes.dpb⟩

end Mark

def Window.Charted {ι : Type} (window : Window ι) (marks : List (Mark Handle)) : Prop :=
  ∀ mark ∈ marks, ∃ picture, window.find? mark.picture = some picture ∧ mark.Describes picture

theorem Window.Charted.of_rewrites {ι : Type} {before after : Window ι} {touched : List Handle}
    {marks : List (Mark Handle)} (charted : before.Charted marks)
    (rewrites : Rewrites touched before after) (apart : ∀ mark ∈ marks, mark.picture ∉ touched) :
    after.Charted marks := by
  intro mark member
  obtain ⟨picture, found, describes⟩ := charted mark member
  obtain ⟨holds, foundAfter⟩ := rewrites.find?_other found (apart mark member)
  exact ⟨_, foundAfter, describes.withHolds holds⟩

theorem Window.Charted.append {ι : Type} {window : Window ι} {first second : List (Mark Handle)}
    (head : window.Charted first) (tail : window.Charted second) :
    window.Charted (first ++ second) :=
  fun mark member => (List.mem_append.mp member).elim (head mark) (tail mark)

def Window.Trailed {ι : Type} (window : Window ι) : Handle → List (Mark Handle) → Prop
  | _, [] => True
  | previous, mark :: rest =>
    (∃ picture, window.find? mark.picture = some picture ∧ picture.previous = some previous) ∧
      window.Trailed (if mark.isReference then mark.picture else previous) rest

namespace Window.Trailed

variable {ι : Type} {before after window : Window ι} {touched : List Handle} {previous : Handle}
  {marks first second : List (Mark Handle)}

theorem congr (trailed : before.Trailed previous marks)
    (keeps : ∀ mark ∈ marks, ∀ picture, before.find? mark.picture = some picture →
      ∃ other, after.find? mark.picture = some other ∧ other.previous = picture.previous) :
    after.Trailed previous marks := by
  induction marks generalizing previous with
  | nil => trivial
  | cons mark rest ih =>
      obtain ⟨⟨picture, found, follows⟩, tail⟩ := trailed
      obtain ⟨headKeeps, restKeeps⟩ := List.forall_mem_cons.mp keeps
      obtain ⟨other, foundAfter, same⟩ := headKeeps picture found
      exact ⟨⟨other, foundAfter, same.trans follows⟩, ih tail restKeeps⟩

theorem of_rewrites (trailed : before.Trailed previous marks)
    (rewrites : Rewrites touched before after) (apart : ∀ mark ∈ marks, mark.picture ∉ touched) :
    after.Trailed previous marks := by
  refine trailed.congr fun mark member picture found => ?_
  obtain ⟨holds, foundAfter⟩ := rewrites.find?_other found (apart mark member)
  exact ⟨_, foundAfter, rfl⟩

theorem adjust (trailed : window.Trailed previous marks) (handle : Handle)
    {change : Picture ι → Picture ι}
    (same : ∀ picture, (change picture).previous = picture.previous) :
    (window.adjust handle change).Trailed previous marks := by
  refine trailed.congr fun mark _ picture found => ?_
  rw [Window.find?_adjust]
  split
  · exact ⟨change picture, by rw [found, Option.map_some], same picture⟩
  · exact ⟨picture, found, rfl⟩

theorem append (head : window.Trailed previous first)
    (tail : window.Trailed (Mark.last previous first) second) :
    window.Trailed previous (first ++ second) := by
  induction first generalizing previous with
  | nil => exact tail
  | cons mark rest ih => exact ⟨head.1, ih head.2 tail⟩

theorem follows (trailed : window.Trailed previous marks) :
    ∀ mark ∈ marks, ∃ picture target, window.find? mark.picture = some picture ∧
      picture.previous = some target ∧ target ∈ previous :: marks.map Mark.picture := by
  induction marks generalizing previous with
  | nil => simp
  | cons head rest ih =>
      obtain ⟨⟨picture, found, follows⟩, tail⟩ := trailed
      intro mark member
      rcases List.mem_cons.mp member with rfl | member
      · exact ⟨picture, previous, found, follows, List.mem_cons_self ..⟩
      · obtain ⟨later, target, foundLater, followsLater, among⟩ := ih tail mark member
        refine ⟨later, target, foundLater, followsLater, ?_⟩
        rcases List.mem_cons.mp among with rfl | among
        · split <;> simp
        · exact List.mem_cons_of_mem _ (List.mem_cons_of_mem _ among)

end Window.Trailed

namespace Hierarchy

variable {α β : Type}

def level (depth : Nat) (past : α) (between : List α) (future : α) (chain : List α) :
    List (Mark α) :=
  between.map fun picture => { picture, depth, isReference := false, past, future, chain }

/-- The plan of a group, see `plan`, with everything that a decoder has to keep. -/
def chart : Nat → Nat → α → List α → α → List α → List (Mark α)
  | 0, depth, past, between, future, chain => level depth past between future chain
  | levels + 1, depth, past, between, future, chain =>
    if several : 1 < between.length then
      have inside : middle between.length < between.length := middle_lt several
      let picture := between[middle between.length]
      { picture, depth, isReference := true, past, future, chain } ::
        (chart levels (depth + 1) past (between.take (middle between.length)) picture
            (future :: chain) ++
          chart levels (depth + 1) picture (between.drop (middle between.length + 1)) future chain)
    else level depth past between future chain

variable {levels depth : Nat} {past future : α} {between chain : List α}

theorem chart_halves (levels depth : Nat) (past : α) {between : List α} (future : α)
    (chain : List α) (several : 1 < between.length) :
    ∃ left picture right, between = left ++ picture :: right ∧
      (left.length ≤ right.length ∧ right.length ≤ left.length + 1) ∧
      chart (levels + 1) depth past between future chain =
        { picture, depth, isReference := true, past, future, chain } ::
          (chart levels (depth + 1) past left picture (future :: chain) ++
            chart levels (depth + 1) picture right future chain) := by
  have inside := middle_lt several
  refine ⟨between.take (middle between.length), between[middle between.length],
    between.drop (middle between.length + 1), ?_, ?_, ?_⟩
  · rw [List.getElem_cons_drop, List.take_append_drop]
  · rw [List.length_take, List.length_drop]
    unfold middle
    omega
  · rw [chart, dif_pos several]

theorem chart_several (levels depth : Nat) (past : α) {between : List α} (future : α)
    (chain : List α) (several : 1 < between.length) :
    ∃ left picture right, between = left ++ picture :: right ∧
      chart (levels + 1) depth past between future chain =
        { picture, depth, isReference := true, past, future, chain } ::
          (chart levels (depth + 1) past left picture (future :: chain) ++
            chart levels (depth + 1) picture right future chain) := by
  obtain ⟨left, picture, right, split, _, chartEq⟩ :=
    chart_halves levels depth past future chain several
  exact ⟨left, picture, right, split, chartEq⟩

theorem chart_induction {motive : Nat → Nat → α → List α → α → List α → List (Mark α) → Prop}
    (flat : ∀ levels depth past between future chain,
      motive levels depth past between future chain (level depth past between future chain))
    (split : ∀ levels depth past left picture right future chain leftMarks rightMarks,
      motive levels (depth + 1) past left picture (future :: chain) leftMarks →
      motive levels (depth + 1) picture right future chain rightMarks →
      motive (levels + 1) depth past (left ++ picture :: right) future chain
        ({ picture, depth, isReference := true, past, future, chain } ::
          (leftMarks ++ rightMarks)))
    (levels depth : Nat) (past : α) (between : List α) (future : α) (chain : List α) :
    motive levels depth past between future chain
      (chart levels depth past between future chain) := by
  induction levels generalizing depth past between future chain with
  | zero => exact flat ..
  | succ levels ih =>
      by_cases several : 1 < between.length
      · obtain ⟨left, picture, right, rfl, chartEq⟩ :=
          chart_several levels depth past future chain several
        rw [chartEq]
        exact split _ _ _ _ _ _ _ _ _ _ (ih ..) (ih ..)
      · rw [chart, dif_neg several]
        exact flat ..

theorem placement_chart (levels depth : Nat) (past : Handle) (between : List Handle)
    (future : Handle) (chain : List Handle) :
    (chart levels depth past between future chain).map Mark.placement =
      plan levels depth past between future := by
  induction levels generalizing depth past between future chain with
  | zero => simp [chart, plan, level, flat, Mark.placement]
  | succ levels ih =>
      rw [chart, plan]
      split
      · simp [ih, Mark.placement]
      · simp [level, flat, Mark.placement]

theorem map_chart (rename : α → β) (levels depth : Nat) (past : α) (between : List α)
    (future : α) (chain : List α) :
    (chart levels depth past between future chain).map (Mark.map rename) =
      chart levels depth (rename past) (between.map rename) (rename future)
        (chain.map rename) := by
  induction levels generalizing depth past between future chain with
  | zero => simp [chart, level, Mark.map]
  | succ levels ih =>
      simp only [chart, List.length_map]
      split
      · simp [ih, Mark.map, List.map_take, List.map_drop]
      · simp [level, Mark.map]

theorem pictures_level (depth : Nat) (past : α) (between : List α) (future : α) (chain : List α) :
    (level depth past between future chain).map Mark.picture = between := by
  rw [level, List.map_map]
  exact List.map_id between

theorem pictures_chart (levels depth : Nat) (past : α) (between : List α) (future : α)
    (chain : List α) :
    ((chart levels depth past between future chain).map Mark.picture).Perm between := by
  refine chart_induction (motive := fun _ _ _ between _ _ marks =>
    (marks.map Mark.picture).Perm between) ?_ ?_ levels depth past between future chain
  · intro _ depth past between future chain
    rw [pictures_level]
  · intro levels depth past left picture right future chain leftMarks rightMarks first second
    rw [List.map_cons, List.map_append]
    exact ((first.append second).cons picture).trans List.perm_middle.symm

theorem chart_nil (levels depth : Nat) (past future : α) (chain : List α) :
    chart levels depth past [] future chain = [] := by
  cases levels <;> simp [chart, level]

theorem head_chart (levels depth : Nat) (past : α) {between : List α} (future : α) (chain : List α)
    (some : between ≠ []) : ∃ first rest,
      chart levels depth past between future chain = first :: rest ∧
        first.past = past ∧ first.future = future := by
  have flat : ∃ first rest, level depth past between future chain = first :: rest ∧
      first.past = past ∧ first.future = future := by
    obtain ⟨picture, rest, rfl⟩ := List.exists_cons_of_ne_nil some
    exact ⟨_, _, rfl, rfl, rfl⟩
  cases levels with
  | zero => exact flat
  | succ levels =>
      by_cases several : 1 < between.length
      · obtain ⟨left, picture, right, _, chartEq⟩ :=
          chart_several levels depth past future chain several
        exact ⟨_, _, chartEq, rfl, rfl⟩
      · rw [chart, dif_neg several]
        exact flat

theorem depth_chart (levels depth : Nat) (past : α) (between : List α) (future : α)
    (chain : List α) :
    ∀ mark ∈ chart levels depth past between future chain, depth ≤ mark.depth := by
  refine chart_induction (motive := fun _ depth _ _ _ _ marks => ∀ mark ∈ marks, depth ≤ mark.depth)
    ?_ ?_ levels depth past between future chain
  · intro _ depth past between future chain mark member
    obtain ⟨picture, _, rfl⟩ := List.mem_map.mp member
    exact Nat.le_refl depth
  · intro _ depth _ _ _ _ _ _ leftMarks rightMarks first second mark member
    rcases List.mem_cons.mp member with rfl | member
    · exact Nat.le_refl depth
    · rcases List.mem_append.mp member with inLeft | inRight
      · exact Nat.le_of_succ_le (first mark inLeft)
      · exact Nat.le_of_succ_le (second mark inRight)

theorem sides_chart (levels depth : Nat) (past : α) (between : List α) (future : α)
    (chain : List α) :
    ∀ mark ∈ chart levels depth past between future chain,
      mark.past ∈ past :: between ∧ mark.future ∈ between ++ [future] := by
  refine chart_induction (motive := fun _ _ past between future _ marks =>
    ∀ mark ∈ marks, mark.past ∈ past :: between ∧ mark.future ∈ between ++ [future]) ?_ ?_
    levels depth past between future chain
  · intro _ depth past between future chain mark member
    obtain ⟨picture, _, rfl⟩ := List.mem_map.mp member
    simp
  · intro levels depth past left picture right future chain leftMarks rightMarks first second mark
      member
    rcases List.mem_cons.mp member with rfl | member
    · simp
    · rcases List.mem_append.mp member with inLeft | inRight
      · have sides := first mark inLeft
        simp only [List.mem_cons, List.mem_append] at sides ⊢
        tauto
      · have sides := second mark inRight
        simp only [List.mem_cons, List.mem_append] at sides ⊢
        tauto

theorem needs_chart (levels depth : Nat) (past : α) (between : List α) (future : α)
    (chain : List α) : ∀ mark ∈ chart levels depth past between future chain,
      ∀ name ∈ mark.needs, name ∈ past :: between ∨ name ∈ future :: chain := by
  refine chart_induction (motive := fun _ _ past between future chain marks =>
    ∀ mark ∈ marks, ∀ name ∈ mark.needs, name ∈ past :: between ∨ name ∈ future :: chain) ?_ ?_
    levels depth past between future chain
  · intro _ depth past between future chain mark member name needed
    obtain ⟨picture, _, rfl⟩ := List.mem_map.mp member
    exact (List.mem_cons.mp needed).imp (fun same => List.mem_cons.mpr (Or.inl same)) id
  · intro levels depth past left picture right future chain leftMarks rightMarks first second mark
      member name needed
    rcases List.mem_cons.mp member with rfl | member
    · exact (List.mem_cons.mp needed).imp (fun same => List.mem_cons.mpr (Or.inl same)) id
    · rcases List.mem_append.mp member with inLeft | inRight
      · have known := first mark inLeft name needed
        simp only [List.mem_cons, List.mem_append] at known ⊢
        tauto
      · have known := second mark inRight name needed
        simp only [List.mem_cons, List.mem_append] at known ⊢
        tauto

theorem rises_chart (levels depth : Nat) (past : α) (between : List α) (future : α)
    (chain : List α) :
    ∀ mark ∈ chart levels depth past between future chain, ∀ name ∈ [mark.past, mark.future],
      name ∈ [past, future] ∨ ∃ other ∈ chart levels depth past between future chain,
        other.picture = name ∧ other.depth < mark.depth ∧ other.isReference = true := by
  suffices rises : ∀ mark ∈ chart levels depth past between future chain, depth ≤ mark.depth ∧
      ∀ name ∈ [mark.past, mark.future], name ∈ [past, future] ∨
        ∃ other ∈ chart levels depth past between future chain,
          other.picture = name ∧ other.depth < mark.depth ∧ other.isReference = true from
    fun mark member => (rises mark member).2
  refine chart_induction (motive := fun _ depth past _ future _ marks => ∀ mark ∈ marks,
    depth ≤ mark.depth ∧ ∀ name ∈ [mark.past, mark.future], name ∈ [past, future] ∨
      ∃ other ∈ marks, other.picture = name ∧ other.depth < mark.depth ∧ other.isReference = true)
    ?_ ?_ levels depth past between future chain
  · intro _ depth past between future chain mark member
    obtain ⟨picture, _, rfl⟩ := List.mem_map.mp member
    exact ⟨Nat.le_refl depth, fun name named => Or.inl named⟩
  · intro levels depth past left picture right future chain leftMarks rightMarks first second mark
      member
    rcases List.mem_cons.mp member with rfl | member
    · exact ⟨Nat.le_refl depth, fun name named => Or.inl named⟩
    · rcases List.mem_append.mp member with inLeft | inRight
      · obtain ⟨deeper, rises⟩ := first mark inLeft
        refine ⟨Nat.le_of_succ_le deeper, fun name named => ?_⟩
        rcases rises name named with around | ⟨other, inside, others⟩
        · rcases List.mem_pair.mp around with rfl | rfl
          · exact Or.inl (by simp)
          · exact Or.inr ⟨_, List.mem_cons_self .., rfl, deeper, rfl⟩
        · exact Or.inr ⟨other, by simp [inside], others⟩
      · obtain ⟨deeper, rises⟩ := second mark inRight
        refine ⟨Nat.le_of_succ_le deeper, fun name named => ?_⟩
        rcases rises name named with around | ⟨other, inside, others⟩
        · rcases List.mem_pair.mp around with rfl | rfl
          · exact Or.inr ⟨_, List.mem_cons_self .., rfl, deeper, rfl⟩
          · exact Or.inl (by simp)
        · exact Or.inr ⟨other, by simp [inside], others⟩

theorem keeps_chart (levels depth : Nat) (past : α) (between : List α) (future : α)
    (chain : List α) :
    ∀ mark ∈ chart levels depth past between future chain,
      ∀ name ∈ future :: chain, name ∈ mark.needs := by
  refine chart_induction (motive := fun _ _ _ _ future chain marks =>
    ∀ mark ∈ marks, ∀ name ∈ future :: chain, name ∈ mark.needs) ?_ ?_
    levels depth past between future chain
  · intro _ depth past between future chain mark member name kept
    obtain ⟨picture, _, rfl⟩ := List.mem_map.mp member
    exact List.mem_cons_of_mem _ kept
  · intro levels depth past left picture right future chain leftMarks rightMarks first second mark
      member name kept
    rcases List.mem_cons.mp member with rfl | member
    · exact List.mem_cons_of_mem _ kept
    · rcases List.mem_append.mp member with inLeft | inRight
      · exact first mark inLeft name (List.mem_cons_of_mem _ kept)
      · exact second mark inRight name kept

theorem apart_chart (levels depth : Nat) (past : α) (between : List α) (future : α)
    (chain : List α) (distinct : between.Nodup)
    (apart : ∀ name ∈ past :: future :: chain, name ∉ between) :
    ∀ mark ∈ chart levels depth past between future chain, mark.picture ∉ mark.needs := by
  refine chart_induction (motive := fun _ _ past between future chain marks => between.Nodup →
    (∀ name ∈ past :: future :: chain, name ∉ between) →
      ∀ mark ∈ marks, mark.picture ∉ mark.needs) ?_ ?_ levels depth past between future chain
    distinct apart
  · intro _ depth past between future chain _ apart mark member named
    obtain ⟨picture, inside, rfl⟩ := List.mem_map.mp member
    exact apart picture named inside
  · intro levels depth past left picture right future chain leftMarks rightMarks first second distinct
      apart mark member
    simp only [List.nodup_append, List.nodup_cons, List.mem_cons, ne_eq] at distinct
    simp only [List.mem_cons, List.mem_append, not_or] at apart
    rcases List.mem_cons.mp member with rfl | member
    · exact fun named => (apart picture (by simpa [Mark.needs] using named)).2.1 rfl
    · rcases List.mem_append.mp member with inLeft | inRight
      · refine first distinct.1 (fun name named inside => ?_) mark inLeft
        rcases List.mem_cons.mp named with rfl | named
        · exact (apart _ (Or.inl rfl)).1 inside
        · rcases List.mem_cons.mp named with rfl | named
          · exact distinct.2.2 _ inside _ (Or.inl rfl) rfl
          · exact (apart name (Or.inr (List.mem_cons.mp named))).1 inside
      · refine second distinct.2.1.2 (fun name named inside => ?_) mark inRight
        rcases List.mem_cons.mp named with rfl | named
        · exact distinct.2.1.1 inside
        · exact (apart name (Or.inr (List.mem_cons.mp named))).2.2 inside

def groupMarks (maxBDepth : Nat) (start : Option α) (waiting : List α) (anchor : α) :
    List (Mark α) :=
  match start with
  | none => []
  | some start => chart (maxBDepth - 1) 1 start waiting anchor []

def lastType (type : PictureType) (marks : List (Mark α)) : PictureType :=
  if marks.any Mark.isReference then .bidirectional else type

theorem groupMarks_map (rename : α → β) (maxBDepth : Nat) (start : Option α) (waiting : List α)
    (anchor : α) :
    (groupMarks maxBDepth start waiting anchor).map (Mark.map rename) =
      groupMarks maxBDepth (start.map rename) (waiting.map rename) (rename anchor) := by
  cases start with
  | none => rfl
  | some start => exact map_chart rename _ _ _ _ _ _

theorem lastType_map (rename : α → β) (type : PictureType) (marks : List (Mark α)) :
    lastType type (marks.map (Mark.map rename)) = lastType type marks := by
  have same : (Mark.isReference ∘ Mark.map rename : Mark α → Bool) = Mark.isReference := rfl
  rw [lastType, List.any_map, same, lastType]

theorem groupMarks_nil (maxBDepth : Nat) (start : Option α) (anchor : α) :
    groupMarks maxBDepth start [] anchor = [] := by
  cases start with
  | none => rfl
  | some start => exact chart_nil ..

theorem pictures_groupMarks {start : Option α} {waiting : List α} (anchor : α)
    (opens : start = none → waiting = []) (maxBDepth : Nat) :
    ((groupMarks maxBDepth start waiting anchor).map Mark.picture).Perm waiting := by
  cases start with
  | none => simp [groupMarks, opens rfl]
  | some start => exact pictures_chart ..

theorem groupMarks_inside (maxBDepth : Nat) (start : Option α) (waiting : List α) (anchor : α) :
    ∀ mark ∈ groupMarks maxBDepth start waiting anchor, mark.picture ∈ waiting := by
  intro mark member
  cases start with
  | none => cases member
  | some start => exact (pictures_chart ..).mem_iff.mp (List.mem_map_of_mem member)

theorem groupMarks_apart {start : Option α} {waiting : List α} {anchor : α}
    (distinct : waiting.Nodup) (apart : ∀ name ∈ anchor :: start.toList, name ∉ waiting)
    (maxBDepth : Nat) :
    ∀ mark ∈ groupMarks maxBDepth start waiting anchor, mark.picture ∉ mark.needs := by
  cases start with
  | none => simp [groupMarks]
  | some start =>
      refine apart_chart _ _ _ _ _ _ distinct fun name member => apart name ?_
      simp only [List.mem_cons, List.not_mem_nil, or_false, Option.toList_some] at member ⊢
      exact member.symm

/-! What a decoder keeps. -/

/-- Every picture finds what it needs among what the one before it leaves. -/
def Decodes {β : Type} (needs leaves : β → List α) (kept : List α) : List β → Prop
  | [] => True
  | picture :: rest =>
      (∀ name ∈ needs picture, name ∈ kept) ∧ Decodes needs leaves (leaves picture) rest

section Decodes

variable {needs leaves : β → List α} {kept shared : List α} {first second : List β}

theorem Decodes.append (head : Decodes needs leaves kept first)
    (keptAll : ∀ name ∈ shared, name ∈ kept)
    (keeps : ∀ picture ∈ first, ∀ name ∈ shared, name ∈ leaves picture)
    (tail : ∀ left : List α, (∀ name ∈ shared, name ∈ left) → Decodes needs leaves left second) :
    Decodes needs leaves kept (first ++ second) := by
  induction first generalizing kept with
  | nil => exact tail kept keptAll
  | cons picture rest ih =>
      exact ⟨head.1, ih head.2 (keeps picture (List.mem_cons_self ..)) fun other member =>
        keeps other (List.mem_cons_of_mem _ member)⟩

theorem Decodes.map {γ : Type} {rename : γ → β} {pictures : List γ}
    (decodes : Decodes (needs ∘ rename) (leaves ∘ rename) kept pictures) :
    Decodes needs leaves kept (pictures.map rename) := by
  induction pictures generalizing kept with
  | nil => trivial
  | cons picture rest ih => exact ⟨decodes.1, ih decodes.2⟩

theorem Decodes.neighbours {pictures : List β} {before after : β} {index : Nat}
    (decodes : Decodes needs leaves kept pictures) (first : pictures[index]? = some before)
    (second : pictures[index + 1]? = some after) : ∀ name ∈ needs after, name ∈ leaves before := by
  induction pictures generalizing kept index with
  | nil => cases first
  | cons picture rest ih =>
      cases index with
      | succ index => exact ih decodes.2 first second
      | zero =>
          cases first
          cases rest with
          | nil => cases second
          | cons other others =>
              cases second
              exact decodes.2.1

end Decodes

theorem decodes_level (depth : Nat) (past : α) (between : List α) (future : α) (chain : List α)
    {kept : List α} (around : ∀ name ∈ past :: future :: chain, name ∈ kept) :
    Decodes Mark.needs Mark.leaves kept (level depth past between future chain) := by
  induction between generalizing kept with
  | nil => trivial
  | cons picture rest ih =>
      exact ⟨around, ih fun name member => List.mem_append_left _ member⟩

theorem decodes_chart (levels depth : Nat) (past : α) (between : List α) (future : α)
    (chain : List α) {kept : List α} (around : ∀ name ∈ past :: future :: chain, name ∈ kept) :
    Decodes Mark.needs Mark.leaves kept (chart levels depth past between future chain) := by
  induction levels generalizing depth past between future chain kept with
  | zero => exact decodes_level depth past between future chain around
  | succ levels ih =>
      by_cases several : 1 < between.length
      · obtain ⟨left, picture, right, rfl, chartEq⟩ :=
          chart_several levels depth past future chain several
        rw [chartEq]
        refine ⟨around, ?_⟩
        -- the picture of the split leaves itself, and the chain keeps `future` for the right half
        have leavesIt : ∀ name ∈ past :: picture :: future :: chain,
            name ∈ past :: future :: chain ++ [picture] := by
          intro name member
          simp only [List.mem_cons, List.mem_append] at member ⊢
          tauto
        have leaves : ∀ name ∈ past :: picture :: future :: chain,
            name ∈ ({ picture, depth, isReference := true, past, future, chain } :
              Mark α).leaves := leavesIt
        refine Decodes.append (ih _ _ _ _ _ leaves)
          (fun name member => leaves name (List.mem_cons_of_mem _ member))
          (fun mark member name kept => List.mem_append_left _
            (keeps_chart levels _ past left picture _ mark member name kept)) fun other keeps => ?_
        exact ih _ _ _ _ _ keeps
      · rw [chart, dif_neg several]
        exact decodes_level depth past between future chain around

/-! What is issued next. -/

/-- Marks in the order in which they become ready: no picture waits for itself or a later one, and
one displayed earlier but marked later waits for one that is not issued before it. -/
def Emits (order : α → Nat) : List (Mark α) → Prop
  | [] => True
  | mark :: rest =>
    (mark.past ∉ (mark :: rest).map Mark.picture ∧ mark.future ∉ (mark :: rest).map Mark.picture) ∧
      mark.picture ∉ rest.map Mark.picture ∧
      (∀ later ∈ rest, order later.picture < order mark.picture →
        later.past ∈ (mark :: rest).map Mark.picture ∨
          later.future ∈ (mark :: rest).map Mark.picture) ∧
      Emits order rest

theorem Emits.append {order : α → Nat} {first second : List (Mark α)} (head : Emits order first)
    (tail : Emits order second)
    (apart : ∀ mark ∈ first, ∀ name ∈ [mark.picture, mark.past, mark.future],
      name ∉ second.map Mark.picture)
    (ordered : ∀ mark ∈ first, ∀ later ∈ second, order mark.picture < order later.picture) :
    Emits order (first ++ second) := by
  induction first with
  | nil => exact tail
  | cons mark rest ih =>
      obtain ⟨⟨past, future⟩, once, waits, later⟩ := head
      have others := apart mark (List.mem_cons_self ..)
      have whole : ∀ marks : List (Mark α), ∀ name, name ∈ (marks ++ second).map Mark.picture ↔
          name ∈ marks.map Mark.picture ∨ name ∈ second.map Mark.picture := by
        intro marks name
        rw [List.map_append, List.mem_append]
      refine ⟨⟨?_, ?_⟩, ?_, fun other member earlier => ?_, ih later
        (fun other member => apart other (List.mem_cons_of_mem _ member))
        fun other member => ordered other (List.mem_cons_of_mem _ member)⟩
      · exact fun member => ((whole (mark :: rest) _).mp member).elim past (others _ (by simp))
      · exact fun member => ((whole (mark :: rest) _).mp member).elim future (others _ (by simp))
      · exact fun member => ((whole rest _).mp member).elim once (others _ (by simp))
      · rcases List.mem_append.mp member with inFirst | inSecond
        · exact (waits other inFirst earlier).imp
            (fun waiting => (whole (mark :: rest) _).mpr (Or.inl waiting))
            fun waiting => (whole (mark :: rest) _).mpr (Or.inl waiting)
        · -- nothing of the second part is displayed before a picture of the first
          have less := ordered mark (List.mem_cons_self ..) other inSecond
          omega

theorem Emits.congr {first second : α → Nat} {marks : List (Mark α)} (emits : Emits first marks)
    (same : ∀ mark ∈ marks, first mark.picture = second mark.picture) : Emits second marks := by
  induction marks with
  | nil => trivial
  | cons mark rest ih =>
      obtain ⟨apart, once, waits, later⟩ := emits
      refine ⟨apart, once, fun other member earlier => waits other member ?_,
        ih later fun other member => same other (List.mem_cons_of_mem _ member)⟩
      rwa [same other (List.mem_cons_of_mem _ member), same mark (List.mem_cons_self ..)]

theorem emits_level {order : α → Nat} (depth : Nat) {past : α} {between : List α} {future : α}
    (chain : List α)
    (ordered : (past :: (between ++ [future])).Pairwise fun first second =>
      order first < order second) :
    Emits order (level depth past between future chain) := by
  induction between with
  | nil => trivial
  | cons picture rest ih =>
      obtain ⟨fromPast, fromPicture, ordered⟩ :
          (∀ name ∈ picture :: rest ++ [future], order past < order name) ∧
          (∀ name ∈ rest ++ [future], order picture < order name) ∧
          (rest ++ [future]).Pairwise fun first second => order first < order second := by
        obtain ⟨fromPast, ordered⟩ := List.pairwise_cons.mp ordered
        exact ⟨fromPast, List.pairwise_cons.mp ordered⟩
      have toFuture : ∀ name ∈ rest, order name < order future := fun name member =>
        (List.pairwise_append.mp ordered).2.2 name member future (List.mem_singleton_self _)
      have pictures := fun rest => pictures_level depth past rest future chain
      have apart : past ∉ picture :: rest ∧ future ∉ picture :: rest ∧ picture ∉ rest := by
        refine ⟨fun member => ?_, fun member => ?_, fun member => ?_⟩
        · exact Nat.lt_irrefl _ (fromPast past (List.mem_append_left _ member))
        · rcases List.mem_cons.mp member with rfl | member
          · exact Nat.lt_irrefl _ (fromPicture future (by simp))
          · exact Nat.lt_irrefl _ (toFuture future member)
        · exact Nat.lt_irrefl _ (fromPicture picture (List.mem_append_left _ member))
      have later := ih (List.pairwise_cons.mpr
        ⟨fun name member => fromPast name (List.mem_cons_of_mem _ member), ordered⟩)
      rw [level, List.map_cons]
      refine ⟨⟨?_, ?_⟩, ?_, ?_, later⟩
      · exact fun member => apart.1 (by rw [← pictures (picture :: rest)]; exact member)
      · exact fun member => apart.2.1 (by rw [← pictures (picture :: rest)]; exact member)
      · exact fun member => apart.2.2 (by rw [← pictures rest]; exact member)
      · intro mark member earlier
        obtain ⟨name, isRest, rfl⟩ := List.mem_map.mp member
        have less := fromPicture name (List.mem_append_left _ isRest)
        dsimp only at earlier
        omega

theorem Emits.split {order : α → Nat} {depth : Nat} {past picture future : α}
    {left right chain : List α} {leftMarks rightMarks : List (Mark α)}
    (ordered : (past :: (left ++ picture :: right ++ [future])).Pairwise fun first second =>
      order first < order second)
    (first : Emits order leftMarks) (second : Emits order rightMarks)
    (leftPictures : ∀ name, name ∈ leftMarks.map Mark.picture ↔ name ∈ left)
    (rightPictures : ∀ name, name ∈ rightMarks.map Mark.picture ↔ name ∈ right)
    (sides : ∀ mark ∈ leftMarks, mark.past ∈ past :: left ∧ mark.future ∈ left ++ [picture]) :
    Emits order ({ picture, depth, isReference := true, past, future, chain } ::
      (leftMarks ++ rightMarks)) := by
  have isLeft : ∀ mark ∈ leftMarks, mark.picture ∈ left :=
    fun mark member => (leftPictures _).mp (List.mem_map_of_mem member)
  have isRight : ∀ mark ∈ rightMarks, mark.picture ∈ right :=
    fun mark member => (rightPictures _).mp (List.mem_map_of_mem member)
  have whole : ∀ name, name ∈ (leftMarks ++ rightMarks).map Mark.picture ↔
      name ∈ left ∨ name ∈ right := by
    intro name
    rw [List.map_append, List.mem_append, leftPictures, rightPictures]
  simp only [List.pairwise_cons, List.pairwise_append, List.mem_append, List.mem_cons,
    List.not_mem_nil, or_false] at ordered sides
  have halves : Emits order (leftMarks ++ rightMarks) := by
    refine first.append second (fun mark member name named inRight => ?_)
      fun mark member later laterMember => ?_
    · rw [rightPictures] at inRight
      have around := sides mark member
      have inLeft := isLeft mark member
      simp only [List.mem_cons, List.not_mem_nil, or_false] at named
      grind
    · have inLeft := isLeft mark member
      have inRight := isRight later laterMember
      grind
  refine ⟨⟨?_, ?_⟩, ?_, fun later member earlier => ?_, halves⟩
  · rw [List.map_cons, List.mem_cons, whole]
    grind
  · rw [List.map_cons, List.mem_cons, whole]
    grind
  · rw [whole]
    grind
  · rw [List.map_cons, List.mem_cons, List.mem_cons, whole, whole]
    dsimp only at earlier ⊢
    rcases List.mem_append.mp member with inLeft | inRight
    · have around := sides later inLeft
      tauto
    · have later := isRight later inRight
      grind

theorem emits_chart {order : α → Nat} (levels depth : Nat) {past : α} {between : List α}
    {future : α} (chain : List α)
    (ordered : (past :: (between ++ [future])).Pairwise fun first second =>
      order first < order second) :
    Emits order (chart levels depth past between future chain) := by
  induction levels generalizing depth past between future chain with
  | zero => exact emits_level depth chain ordered
  | succ levels ih =>
      by_cases several : 1 < between.length
      · obtain ⟨left, picture, right, rfl, chartEq⟩ :=
          chart_several levels depth past future chain several
        rw [chartEq]
        exact Emits.split ordered
          (ih _ _ (ordered.sublist (List.Sublist.cons_cons _ (by simp))))
          (ih _ _ (ordered.sublist (by simp)))
          (fun name => (pictures_chart ..).mem_iff) (fun name => (pictures_chart ..).mem_iff)
          (sides_chart levels (depth + 1) past left picture (future :: chain))
      · rw [chart, dif_neg several]
        exact emits_level depth chain ordered

theorem emits_groupMarks {order : α → Nat} {start : Option α} {waiting : List α} {anchor : α}
    (ordered : (start.toList ++ (waiting ++ [anchor])).Pairwise fun first second =>
      order first < order second) (maxBDepth : Nat) :
    Emits order (groupMarks maxBDepth start waiting anchor) := by
  cases start with
  | none => trivial
  | some start => exact emits_chart _ _ _ ordered

end Hierarchy

end VideoSchedule

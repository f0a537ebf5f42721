import Mathlib.Data.Nat.Log
import VideoSchedule.Proofs.Hierarchy

/-!
The shape of a hierarchy. However a slice of the window is split, a picture refers to the nearest
ones on either side that lie less deep, the deepest level follows from the number of pictures, and a
picture is a reference picture exactly if another one of its group refers to it.
-/

namespace VideoSchedule

open VideoSchedule.Action

namespace Hierarchy

variable {α : Type} {levels depth : Nat} {past future : α} {between chain : List α}

/-! Levels. -/

theorem log2_mono {few : Nat} (many : Nat) (le : few ≤ many) : few.log2 ≤ many.log2 := by
  rw [Nat.log2_eq_log_two, Nat.log2_eq_log_two]
  exact Nat.log_mono_right le

theorem log2_of_several {count : Nat} (several : 1 < count) :
    count.log2 = (count / 2).log2 + 1 := by
  rw [Nat.log2_def, if_pos (show 2 ≤ count from several)]

theorem log2_of_few {count : Nat} (few : ¬1 < count) : count.log2 = 0 := by
  rw [Nat.log2_def, if_neg (show ¬2 ≤ count from few)]

theorem chart_succ (enough : between.length.log2 ≤ levels) :
    chart (levels + 1) depth past between future chain =
      chart levels depth past between future chain := by
  induction levels generalizing depth past between future chain with
  | zero =>
      have few : ¬1 < between.length := fun several => by
        rw [log2_of_several several] at enough
        omega
      simp only [chart, dif_neg few]
  | succ levels ih =>
      by_cases several : 1 < between.length
      · rw [log2_of_several several] at enough
        have left : (between.take (middle between.length)).length.log2 ≤ levels := by
          refine (log2_mono (between.length / 2) ?_).trans (by omega)
          rw [List.length_take]
          unfold middle
          omega
        have right : (between.drop (middle between.length + 1)).length.log2 ≤ levels := by
          refine (log2_mono (between.length / 2) ?_).trans (by omega)
          rw [List.length_drop]
          unfold middle
          omega
        rw [chart, dif_pos several, chart, dif_pos several]
        dsimp only
        rw [ih left, ih right]
      · rw [chart, dif_neg several, chart, dif_neg several]

theorem chart_enough (enough : between.length.log2 ≤ levels) :
    chart levels depth past between future chain =
      chart between.length.log2 depth past between future chain := by
  induction levels, enough using Nat.le_induction with
  | base => rfl
  | succ levels enough ih => exact (chart_succ enough).trans ih

theorem chart_min (levels depth : Nat) (past : α) (between : List α) (future : α) (chain : List α) :
    chart levels depth past between future chain =
      chart (min levels between.length.log2) depth past between future chain := by
  rcases Nat.le_total levels between.length.log2 with few | enough
  · rw [Nat.min_eq_left few]
  · rw [Nat.min_eq_right enough, chart_enough enough]

theorem deepest_level (flat : min levels between.length.log2 = 0) (depth : Nat) (past future : α)
    (chain : List α) :
    (∀ mark ∈ level depth past between future chain,
      mark.depth ≤ depth + min levels between.length.log2) ∧
    (between ≠ [] → ∃ mark ∈ level depth past between future chain,
      mark.depth = depth + min levels between.length.log2) := by
  rw [flat, Nat.add_zero]
  constructor
  · intro mark member
    obtain ⟨_, _, rfl⟩ := List.mem_map.mp member
    exact Nat.le_refl depth
  · intro some
    obtain ⟨first, rest, rfl⟩ := List.exists_cons_of_ne_nil some
    exact ⟨_, List.mem_cons_self .., rfl⟩

theorem deepest_chart (levels depth : Nat) (past : α) (between : List α) (future : α)
    (chain : List α) :
    (∀ mark ∈ chart levels depth past between future chain,
      mark.depth ≤ depth + min levels between.length.log2) ∧
    (between ≠ [] → ∃ mark ∈ chart levels depth past between future chain,
      mark.depth = depth + min levels between.length.log2) := by
  induction levels generalizing depth past between future chain with
  | zero => exact deepest_level (Nat.zero_min _) ..
  | succ levels ih =>
      by_cases several : 1 < between.length
      · obtain ⟨left, picture, right, rfl, ⟨shorter, even⟩, chartEq⟩ :=
          chart_halves levels depth past future chain several
        have half : (left ++ picture :: right).length / 2 = right.length := by
          rw [List.length_append, List.length_cons]
          omega
        have deeper : depth + min (levels + 1) (left ++ picture :: right).length.log2 =
            depth + 1 + min levels right.length.log2 := by
          rw [log2_of_several several, half]
          omega
        rw [chartEq, deeper]
        obtain ⟨leftBound, _⟩ := ih (depth + 1) past left picture (future :: chain)
        obtain ⟨rightBound, reached⟩ := ih (depth + 1) picture right future chain
        constructor
        · intro mark member
          rcases List.mem_cons.mp member with rfl | member
          · dsimp only
            omega
          · rcases List.mem_append.mp member with inLeft | inRight
            · have bound := leftBound mark inLeft
              have less := log2_mono _ shorter
              omega
            · exact rightBound mark inRight
        · intro _
          have some : right ≠ [] := by
            rintro rfl
            simp only [List.length_append, List.length_cons, List.length_nil] at *
            omega
          obtain ⟨mark, member, deepest⟩ := reached some
          exact ⟨mark, by simp [member], deepest⟩
      · rw [chart, dif_neg several]
        exact deepest_level (by rw [log2_of_few several, Nat.min_zero]) ..

/-! Neighbours. -/

theorem find?_before {check : α → Bool} {left : List α}
    (skips : ∀ name ∈ left, check name = false) (stops : check past = true) :
    (past :: left).reverse.find? check = some past := by
  have none : left.reverse.find? check = none := by
    simpa [List.find?_eq_none] using skips
  rw [List.reverse_cons, List.find?_append, none, Option.none_or]
  simp [stops]

theorem find?_after {check : α → Bool} {right : List α}
    (skips : ∀ name ∈ right, check name = false) (stops : check future = true) :
    (right ++ [future]).find? check = some future := by
  have none : right.find? check = none := by
    simpa [List.find?_eq_none] using skips
  rw [List.find?_append, none, Option.none_or]
  simp [stops]

theorem nearest_chart (rank : α → Nat) (levels depth : Nat) (past : α) (between : List α)
    (future : α) (chain : List α) (pastLess : rank past < depth) (futureLess : rank future < depth)
    (ranked : ∀ mark ∈ chart levels depth past between future chain,
      rank mark.picture = mark.depth) :
    ∀ mark ∈ chart levels depth past between future chain,
      ∃ left right, between = left ++ mark.picture :: right ∧
        (past :: left).reverse.find? (fun name => decide (rank name < mark.depth)) =
          some mark.past ∧
        (right ++ [future]).find? (fun name => decide (rank name < mark.depth)) =
          some mark.future := by
  suffices near : (∀ name ∈ between, depth ≤ rank name) ∧
      ∀ mark ∈ chart levels depth past between future chain,
        ∃ left right, between = left ++ mark.picture :: right ∧
          (past :: left).reverse.find? (fun name => decide (rank name < mark.depth)) =
            some mark.past ∧
          (right ++ [future]).find? (fun name => decide (rank name < mark.depth)) =
            some mark.future from near.2
  revert ranked futureLess pastLess
  refine chart_induction (motive := fun _ depth past between future _ marks =>
    rank past < depth → rank future < depth → (∀ mark ∈ marks, rank mark.picture = mark.depth) →
      (∀ name ∈ between, depth ≤ rank name) ∧
      ∀ mark ∈ marks, ∃ left right, between = left ++ mark.picture :: right ∧
        (past :: left).reverse.find? (fun name => decide (rank name < mark.depth)) =
          some mark.past ∧
        (right ++ [future]).find? (fun name => decide (rank name < mark.depth)) =
          some mark.future) ?_ ?_ levels depth past between future chain
  · intro _ depth past between future chain pastLess futureLess ranked
    have even : ∀ name ∈ between, rank name = depth := fun name member =>
      ranked _ (List.mem_map_of_mem member)
    refine ⟨fun name member => (even name member).ge, fun mark member => ?_⟩
    obtain ⟨name, inside, rfl⟩ := List.mem_map.mp member
    obtain ⟨left, right, rfl⟩ := List.append_of_mem inside
    refine ⟨left, right, rfl, find?_before ?_ (by simpa using pastLess),
      find?_after ?_ (by simpa using futureLess)⟩
    · intro other member
      simp [even other (by simp [member])]
    · intro other member
      simp [even other (by simp [member])]
  · intro levels depth past left picture right future chain leftMarks rightMarks first second
      pastLess futureLess ranked
    have centre : rank picture = depth := ranked _ (List.mem_cons_self ..)
    obtain ⟨leftDeep, leftNear⟩ := first (by omega) (by omega) fun mark member =>
      ranked mark (by simp [member])
    obtain ⟨rightDeep, rightNear⟩ := second (by omega) (by omega) fun mark member =>
      ranked mark (by simp [member])
    constructor
    · intro name member
      rcases List.mem_append.mp member with inLeft | member
      · exact Nat.le_of_succ_le (leftDeep name inLeft)
      · rcases List.mem_cons.mp member with rfl | inRight
        · exact centre.ge
        · exact Nat.le_of_succ_le (rightDeep name inRight)
    · intro mark member
      rcases List.mem_cons.mp member with rfl | member
      · refine ⟨left, right, rfl, find?_before (fun name inLeft => ?_) (by simpa using pastLess),
          find?_after (fun name inRight => ?_) (by simpa using futureLess)⟩
        · simpa using Nat.le_of_succ_le (leftDeep name inLeft)
        · simpa using Nat.le_of_succ_le (rightDeep name inRight)
      · rcases List.mem_append.mp member with inLeft | inRight
        · obtain ⟨front, back, rfl, before, after⟩ := leftNear mark inLeft
          refine ⟨front, back ++ picture :: right, by simp, before, ?_⟩
          have regrouped : back ++ picture :: right ++ [future] =
              back ++ [picture] ++ (right ++ [future]) := by simp
          rw [regrouped, List.find?_append, after, Option.some_or]
        · obtain ⟨front, back, rfl, before, after⟩ := rightNear mark inRight
          refine ⟨left ++ picture :: front, back, by simp, ?_, after⟩
          have regrouped : (past :: (left ++ picture :: front)).reverse =
              (picture :: front).reverse ++ (past :: left).reverse := by simp
          rw [regrouped, List.find?_append, before, Option.some_or]

theorem referring_chart (levels depth : Nat) (past : α) (between : List α) (future : α)
    (chain : List α) :
    ∀ mark ∈ chart levels depth past between future chain, mark.isReference = true →
      ∃ other ∈ chart levels depth past between future chain,
        mark.picture ∈ [other.past, other.future] := by
  induction levels generalizing depth past between future chain with
  | zero =>
      intro mark member reference
      obtain ⟨_, _, rfl⟩ := List.mem_map.mp member
      cases reference
  | succ levels ih =>
      by_cases several : 1 < between.length
      · obtain ⟨left, picture, right, rfl, ⟨shorter, even⟩, chartEq⟩ :=
          chart_halves levels depth past future chain several
        rw [chartEq]
        intro mark member reference
        rcases List.mem_cons.mp member with rfl | member
        · have some : right ≠ [] := by
            rintro rfl
            simp only [List.length_append, List.length_cons, List.length_nil] at *
            omega
          obtain ⟨first, rest, headEq, pastEq, _⟩ :=
            head_chart levels (depth + 1) picture future chain some
          exact ⟨first, by simp [headEq], by simp [pastEq]⟩
        · rcases List.mem_append.mp member with inLeft | inRight
          · obtain ⟨other, isOther, named⟩ := ih _ _ _ _ _ mark inLeft reference
            exact ⟨other, by simp [isOther], named⟩
          · obtain ⟨other, isOther, named⟩ := ih _ _ _ _ _ mark inRight reference
            exact ⟨other, by simp [isOther], named⟩
      · rw [chart, dif_neg several]
        intro mark member reference
        obtain ⟨_, _, rfl⟩ := List.mem_map.mp member
        cases reference

theorem referred_chart (levels depth : Nat) (past : α) (between : List α) (future : α)
    (chain : List α) (distinct : (past :: (between ++ [future])).Nodup) :
    ∀ mark ∈ chart levels depth past between future chain, mark.isReference = true ↔
      ∃ other ∈ chart levels depth past between future chain,
        mark.picture ∈ [other.past, other.future] := by
  have apart : ∀ mark ∈ chart levels depth past between future chain,
      mark.picture ∉ [past, future] := by
    intro mark member around
    have inside := (pictures_chart ..).mem_iff.mp (List.mem_map_of_mem member)
    simp only [List.nodup_cons, List.nodup_append, List.mem_append] at distinct
    rcases List.mem_pair.mp around with same | same
    · exact distinct.1 (Or.inl (same ▸ inside))
    · exact distinct.2.2.2 _ inside _ (List.mem_singleton_self _) same
  intro mark member
  constructor
  · exact referring_chart levels depth past between future chain mark member
  · rintro ⟨other, isOther, named⟩
    rcases rises_chart _ _ _ _ _ _ other isOther _ named with around | ⟨found, isFound, same, _, reference⟩
    · exact absurd around (apart mark member)
    · have distinctPictures : ((chart levels depth past between future chain).map
          Mark.picture).Nodup := by
        rw [(pictures_chart ..).nodup_iff]
        simp only [List.nodup_cons, List.nodup_append] at distinct
        exact distinct.2.1
      rwa [List.inj_on_of_nodup_map distinctPictures isFound member same] at reference

theorem ends_chart (levels depth : Nat) (past : α) (between : List α) (future : α)
    (chain : List α) :
    ∀ mark ∈ chart levels depth past between future chain,
      (mark.future :: mark.chain).getLast? = (future :: chain).getLast? := by
  refine chart_induction (motive := fun _ _ _ _ future chain marks => ∀ mark ∈ marks,
    (mark.future :: mark.chain).getLast? = (future :: chain).getLast?) ?_ ?_
    levels depth past between future chain
  · intro _ depth past between future chain mark member
    obtain ⟨_, _, rfl⟩ := List.mem_map.mp member
    rfl
  · intro levels depth past left picture right future chain leftMarks rightMarks first second mark
      member
    rcases List.mem_cons.mp member with rfl | member
    · rfl
    · rcases List.mem_append.mp member with inLeft | inRight
      · exact first mark inLeft
      · exact second mark inRight

/-! The layout of a slice. -/

end Hierarchy

/-- The depth of a picture of a group; the two around it count as depth 0. -/
def Window.rank {ι : Type} (window : Window ι) (between : List Handle) (handle : Handle) : Nat :=
  if handle ∈ between then ((window.find? handle).map Picture.depth).getD 0 else 0

namespace Hierarchy

open Window

variable {ι : Type} {window before after : Window ι} {order : List Handle} {first last : Nat}
  {maxDepth : Nat} {previous : Handle}

theorem leads_chart {past future : Handle} {between chain : List Handle}
    (charted : window.Charted (chart levels depth past between future chain))
    (leads : window.FutureChain future chain) :
    ∀ mark ∈ chart levels depth past between future chain,
      window.FutureChain mark.future mark.chain := by
  revert charted leads
  refine chart_induction (motive := fun _ _ _ _ future chain marks => window.Charted marks →
    window.FutureChain future chain → ∀ mark ∈ marks, window.FutureChain mark.future mark.chain)
    ?_ ?_ levels depth past between future chain
  · intro _ depth past between future chain _ leads mark member
    obtain ⟨_, _, rfl⟩ := List.mem_map.mp member
    exact leads
  · intro levels depth past left picture right future chain leftMarks rightMarks inLeft inRight
      charted leads
    obtain ⟨centre, found, describes⟩ := charted _ (List.mem_cons_self ..)
    have centreLeads : window.FutureChain picture (future :: chain) :=
      ⟨⟨centre, found, by simp [describes.future]⟩, leads⟩
    have leftKnown := inLeft (fun mark member => charted mark (by simp [member])) centreLeads
    have rightKnown := inRight (fun mark member => charted mark (by simp [member])) leads
    intro mark member
    rcases List.mem_cons.mp member with rfl | member
    · exact leads
    · exact (List.mem_append.mp member).elim (leftKnown mark) (rightKnown mark)

structure Seated (window : Window ι) (past : Handle) (between : List Handle) (future : Handle)
    (handle : Handle) (picture : Picture ι) : Prop where
  type : picture.type = .bidirectional
  /-- Its references are the nearest pictures of smaller depth on either side. -/
  nearest : ∃ left right pastNear futureNear, between = left ++ handle :: right ∧
    picture.past = [pastNear] ∧ picture.future = [futureNear] ∧
    (past :: left).reverse.find? (fun other => decide (window.rank between other < picture.depth)) =
      some pastNear ∧
    (right ++ [future]).find? (fun other => decide (window.rank between other < picture.depth)) =
      some futureNear
  /-- It is a reference picture exactly if another picture of the group refers to it. -/
  reference : picture.isReference = true ↔ ∃ other ∈ between, other ≠ handle ∧
    ∃ current, window.find? other = some current ∧ handle ∈ current.past ++ current.future
  /-- A decoder keeps it, its references, and all that follows from the later one up to the end. -/
  dpb : ∃ futureNear chain, picture.future = [futureNear] ∧ window.FutureChain futureNear chain ∧
    (futureNear :: chain).getLast? = some future ∧
    picture.dpb = (if picture.isReference then [handle] else []) ++
      (picture.past ++ picture.future ++ chain)

/-- What the layout of a group down to `deepest` makes of a window: only pictures of the group change
in more than the holds on them. -/
structure LaidOut (deepest : Nat) (past : Handle) (between : List Handle) (future : Handle)
    (before after : Window ι) : Prop where
  rewrites : Rewrites between before after
  seated : ∀ handle ∈ between, ∃ picture, after.find? handle = some picture ∧
    1 ≤ picture.depth ∧ picture.depth ≤ deepest ∧ Seated after past between future handle picture
  reached : ∃ handle ∈ between, ∃ picture, after.find? handle = some picture ∧
    picture.depth = deepest

theorem laidOut_chart {past future : Handle} {between : List Handle}
    (gap : Gap before levels past between future []) (rewrites : Rewrites between before after)
    (charted : after.Charted (chart levels 1 past between future [])) (filled : between ≠ []) :
    LaidOut (1 + min levels between.length.log2) past between future before after := by
  have distinct := gap.nodup
  have outside : past ∉ between ∧ future ∉ between := by
    simp only [List.nodup_cons, List.nodup_append, List.mem_append, not_or] at distinct
    exact ⟨distinct.1.1, fun member =>
      distinct.2.2.2 future member future (List.mem_singleton_self _) rfl⟩
  have unnamed : ∀ mark ∈ chart levels 1 past between future [], mark.picture ∉ mark.needs := by
    have distinctBetween : between.Nodup := by
      simp only [List.nodup_cons, List.nodup_append] at distinct
      exact distinct.2.1
    exact apart_chart _ _ _ _ _ _ distinctBetween (by simp [outside])
  have pictures := pictures_chart levels 1 past between future []
  have marked : ∀ handle ∈ between,
      ∃ mark ∈ chart levels 1 past between future [], mark.picture = handle := fun handle member =>
    List.mem_map.mp (pictures.mem_iff.mpr member)
  have ranked : ∀ mark ∈ chart levels 1 past between future [],
      after.rank between mark.picture = mark.depth := by
    intro mark member
    obtain ⟨picture, found, describes⟩ := charted mark member
    have isBetween := pictures.mem_iff.mp (List.mem_map_of_mem member)
    rw [rank, if_pos isBetween, found, Option.map_some, Option.getD_some, describes.depth]
  have near := nearest_chart (after.rank between) levels 1 past between future []
    (by simp [rank, outside.1]) (by simp [rank, outside.2]) ranked
  have leads : after.FutureChain future [] := by
    refine gap.leads.of_rewrites rewrites fun target single => ?_
    rw [List.mem_singleton.mp single]
    exact outside.2
  obtain ⟨bounded, deepest⟩ := deepest_chart levels 1 past between future []
  refine ⟨rewrites, fun handle member => ?_, ?_⟩
  · obtain ⟨mark, isMark, rfl⟩ := marked handle member
    obtain ⟨picture, found, describes⟩ := charted mark isMark
    have depthEq : picture.depth = mark.depth := describes.depth
    refine ⟨picture, found, ?_, ?_, describes.type, ?_, ?_, ?_⟩
    · rw [depthEq]
      exact depth_chart _ _ _ _ _ _ mark isMark
    · rw [depthEq]
      exact bounded mark isMark
    · obtain ⟨left, right, split, before, behind⟩ := near mark isMark
      rw [depthEq]
      exact ⟨left, right, mark.past, mark.future, split, describes.past, describes.future, before,
        behind⟩
    · rw [describes.isReference, referred_chart _ _ _ _ _ _ distinct mark isMark]
      constructor
      · rintro ⟨other, isOther, named⟩
        obtain ⟨current, foundOther, describesOther⟩ := charted other isOther
        refine ⟨other.picture, pictures.mem_iff.mp (List.mem_map_of_mem isOther), ?_, current,
          foundOther, by rwa [describesOther.past, describesOther.future]⟩
        intro same
        rw [← same] at named
        refine unnamed other isOther ?_
        simp only [Mark.needs, List.mem_cons, List.not_mem_nil, or_false] at named ⊢
        tauto
      · rintro ⟨handle, isBetween, _, current, foundOther, named⟩
        obtain ⟨other, isOther, rfl⟩ := marked handle isBetween
        obtain ⟨same, foundSame, describesOther⟩ := charted other isOther
        cases find?_unique foundOther foundSame
        exact ⟨other, isOther, by rwa [describesOther.past, describesOther.future] at named⟩
    · refine ⟨mark.future, mark.chain, describes.future, leads_chart charted leads mark isMark,
        ends_chart _ _ _ _ _ _ mark isMark, ?_⟩
      rw [describes.dpb, describes.isReference, describes.past, describes.future]
      rfl
  · obtain ⟨mark, isMark, depthEq⟩ := deepest filled
    obtain ⟨picture, found, describes⟩ := charted mark isMark
    exact ⟨mark.picture, pictures.mem_iff.mp (List.mem_map_of_mem isMark), picture, found,
      describes.depth.trans depthEq⟩

theorem slice_split (several : first + 1 < last) (inside : last < order.length) :
    ∃ past future, order[first]? = some past ∧ order[last]? = some future ∧
      (past :: ((order.take last).drop (first + 1) ++ [future])).Sublist order := by
  have early : first < (order.take last).length := by
    rw [List.length_take]
    omega
  refine ⟨order[first], order[last], List.getElem?_eq_getElem _, List.getElem?_eq_getElem _, ?_⟩
  have whole : order[first] :: ((order.take last).drop (first + 1) ++ [order[last]]) =
      (order.take (last + 1)).drop first := by
    rw [List.take_succ_eq_append_getElem inside, List.drop_append_of_le_length early.le,
      List.drop_eq_getElem_cons early, List.getElem_take, List.cons_append]
  rw [whole]
  exact (List.drop_sublist _ _).trans (List.take_sublist _ _)

theorem layOutSlice_eq {past future : Handle} (pastEq : order[first]? = some past)
    (futureEq : order[last]? = some future) (filled : (order.take last).drop (first + 1) ≠ [])
    (maxDepth : Nat) (previous : Handle) :
    (layOutSlice maxDepth 1 order first last previous : Action (Window ι) Handle) =
      placeAll ((chart (min (maxDepth - 1) ((order.take last).drop (first + 1)).length.log2) 1 past
        ((order.take last).drop (first + 1)) future []).map Mark.placement) previous := by
  rw [layOutSlice, pastEq, futureEq]
  dsimp only
  rw [layOut, if_neg (by simpa using filled), ← placement_chart _ _ _ _ _ [], ← chart_min]

theorem layOutSlice_ok (ordered : order.Pairwise window.Before) (several : first + 1 < last)
    (inside : last < order.length)
    (fresh : ∀ handle ∈ (order.take last).drop (first + 1),
      ∃ picture, window.find? handle = some picture ∧ picture.Fresh)
    (closes : ∀ picture, window.find? order[last] = some picture → picture.future = [])
    (live : previous ∈ window.handles) (deep : 1 ≤ maxDepth)
    (bounded : min maxDepth ((last - first - 1).log2 + 1) ≤ 15) :
    ∃ placements after,
      layOutSlice maxDepth 1 order first last previous = placeAll (ι := ι) placements previous ∧
      (placements.map Placement.picture).Perm ((order.take last).drop (first + 1)) ∧
      (∃ reference,
        Runs (layOutSlice maxDepth 1 order first last previous) window (.ok reference) after) ∧
      LaidOut (min maxDepth ((last - first - 1).log2 + 1)) order[first]
        ((order.take last).drop (first + 1)) order[last] window after ∧
      ∀ other, (last - first - 1).log2 + 1 ≤ maxDepth → (last - first - 1).log2 + 1 ≤ other →
        layOutSlice maxDepth 1 order first last previous =
          (layOutSlice other 1 order first last previous : Action (Window ι) Handle) := by
  obtain ⟨past, future, pastEq, futureEq, sublist⟩ := slice_split several inside
  have count : ((order.take last).drop (first + 1)).length = last - first - 1 := by
    rw [List.length_drop, List.length_take]
    omega
  have filled : (order.take last).drop (first + 1) ≠ [] := by
    rw [← List.length_pos_iff, count]
    omega
  obtain ⟨_, rfl⟩ := List.getElem?_eq_some_iff.mp pastEq
  obtain ⟨_, rfl⟩ := List.getElem?_eq_some_iff.mp futureEq
  have layoutEq := layOutSlice_eq (ι := ι) pastEq futureEq filled
  generalize (order.take last).drop (first + 1) = between at *
  rw [← count] at bounded ⊢
  have gap : Gap window (min (maxDepth - 1) between.length.log2) order[first] between order[last]
      [] := by
    refine ⟨ordered.sublist sublist, fresh, ?_, by simp, ?_⟩
    · have linked := ordered.sublist sublist
      obtain ⟨picture, found⟩ : ∃ picture, window.find? order[last] = some picture := by
        obtain ⟨_, later, _, found, _⟩ := (List.pairwise_cons.mp linked).1 order[last] (by simp)
        exact ⟨later, found⟩
      exact ⟨picture, found, closes picture found⟩
    · simp only [List.length_nil, maxDpbSize]
      omega
  obtain ⟨after, runs, _, rewrites, charted, _⟩ := chart_runs gap live 1
  have laidOut := laidOut_chart gap rewrites charted filled
  have deepest : 1 + min (min (maxDepth - 1) between.length.log2) between.length.log2 =
      min maxDepth (between.length.log2 + 1) := by omega
  rw [deepest] at laidOut
  rw [← layoutEq] at runs
  refine ⟨_, after, layoutEq maxDepth previous, ?_, ⟨_, runs⟩, laidOut, ?_⟩
  · rw [List.map_map]
    exact pictures_chart ..
  · intro other enough enoughOther
    have same : min (maxDepth - 1) between.length.log2 =
        min (other - 1) between.length.log2 := by omega
    rw [layoutEq, layoutEq, same]

def lineUp : Window Unit :=
  ofPictures ((List.range 7).map fun place => Picture.ofFrame place {} false ())

theorem find?_lineUp : ∀ place < 7,
    lineUp.find? ⟨place, 0⟩ = some (Picture.ofFrame place {} false ()) := by
  decide

theorem ordered_lineUp : lineUp.handles.Pairwise lineUp.Before := by
  have handlesEq : lineUp.handles = (List.range 7).map fun place => ⟨place, 0⟩ := by decide
  rw [handlesEq, List.pairwise_map]
  refine List.pairwise_lt_range.imp_of_mem fun {earlier later} isFirst isSecond less => ?_
  exact ⟨_, _, find?_lineUp earlier (List.mem_range.mp isFirst),
    find?_lineUp later (List.mem_range.mp isSecond), less⟩

theorem fresh_lineUp : ∀ handle ∈ (lineUp.handles.take 6).drop (0 + 1),
    ∃ picture, lineUp.find? handle = some picture ∧ picture.Fresh := by
  have places : (lineUp.handles.take 6).drop (0 + 1) =
      [1, 2, 3, 4, 5].map fun place => ⟨place, 0⟩ := by decide
  rw [places]
  intro handle member
  obtain ⟨place, isPlace, rfl⟩ := List.mem_map.mp member
  have less : place < 7 := by
    simp only [List.mem_cons, List.not_mem_nil, or_false] at isPlace
    omega
  exact ⟨_, find?_lineUp place less, ⟨rfl, rfl, rfl, rfl, rfl⟩, rfl, rfl⟩

theorem closes_lineUp : ∀ picture, lineUp.find? ⟨6, 0⟩ = some picture → picture.future = [] := by
  intro picture found
  cases find?_unique found (find?_lineUp 6 (by decide))
  rfl

theorem layOutSlice_ok_lineUp :
    ∃ reference after, Runs (layOutSlice 9 1 lineUp.handles 0 6 ⟨6, 0⟩) lineUp (.ok reference) after ∧
      after.pictures.map Picture.depth = [0, 2, 3, 1, 2, 3, 0] ∧
      LaidOut 3 ⟨0, 0⟩ [⟨1, 0⟩, ⟨2, 0⟩, ⟨3, 0⟩, ⟨4, 0⟩, ⟨5, 0⟩] ⟨6, 0⟩ lineUp after := by
  have live : (⟨6, 0⟩ : Handle) ∈ lineUp.handles := by decide
  obtain ⟨_, after, _, _, ⟨reference, runs⟩, laidOut, _⟩ :=
    layOutSlice_ok ordered_lineUp (show 0 + 1 < 6 by decide) (by decide) fresh_lineUp closes_lineUp
      live (show 1 ≤ 9 by decide) (by decide)
  refine ⟨reference, after, runs, ?_, laidOut⟩
  rw [← runs.state_eq]
  decide

theorem layOutSlice_unknown_previous :
    ¬∀ (window : Window Unit) (order : List Handle) (first last maxDepth : Nat) (previous : Handle)
      (inside : last < order.length), order.Pairwise window.Before → first + 1 < last →
      (∀ handle ∈ (order.take last).drop (first + 1),
        ∃ picture, window.find? handle = some picture ∧ picture.Fresh) →
      (∀ picture, window.find? order[last] = some picture → picture.future = []) →
      1 ≤ maxDepth → min maxDepth ((last - first - 1).log2 + 1) ≤ 15 →
      ∃ reference after,
        Runs (layOutSlice maxDepth 1 order first last previous) window (.ok reference) after := by
  intro claim
  obtain ⟨reference, after, runs⟩ := claim lineUp lineUp.handles 0 6 9 ⟨7, 0⟩ (by decide)
    ordered_lineUp (by decide) fresh_lineUp closes_lineUp (by decide) (by decide)
  have failed : (layOutSlice 9 1 lineUp.handles 0 6 ⟨7, 0⟩ lineUp).result =
      .error .invalidReferenceState := by decide
  cases failed.symm.trans runs.result_eq

end Hierarchy

end VideoSchedule

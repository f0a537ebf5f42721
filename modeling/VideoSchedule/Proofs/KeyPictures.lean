import VideoSchedule.Proofs.Groups

/-!
Key pictures. Where they stand and whether they are IDR pictures follows from the size of a group of
pictures, the number of such groups from one IDR picture to the next, and the frames that have to be
IDR pictures. Between top layer pictures there are as many B-pictures as the structure allows, save
where a key picture is near or the stream ends.
-/

namespace VideoSchedule

def MustBeIdr (frames : List Frame) (order : Nat) : Prop :=
  order = 0 ∨ ∃ frame, frames[order]? = some frame ∧ frame.forceKey = true

def PictureType.key? (type : PictureType) : Option PictureType :=
  if type.isKey then some type else none

namespace Outline

variable {kind : Outline → Prop} {first more outlines : List Outline} {found : Outline}
  {start next order : Nat}

def IsKey (outline : Outline) : Prop := outline.type.isKey = true

def IsIdr (outline : Outline) : Prop := outline.type = .idr

/-- The last picture of some kind displayed before `order`. -/
structure Latest (kind : Outline → Prop) (outlines : List Outline) (order : Nat) (found : Outline) :
    Prop where
  listed : found ∈ outlines
  fits : kind found
  earlier : found.displayOrder < order
  last : ∀ other ∈ outlines, kind other → other.displayOrder < order →
    other.displayOrder ≤ found.displayOrder

def keysWithin (outlines : List Outline) (start order : Nat) : Nat :=
  outlines.countP fun outline =>
    outline.type.isKey && decide (start ≤ outline.displayOrder) &&
      decide (outline.displayOrder < order)

/-- Two top layer pictures with none between them. -/
structure Consecutive (outlines : List Outline) (first second : Outline) : Prop where
  listed : first ∈ outlines ∧ second ∈ outlines
  top : first.depth = 0 ∧ second.depth = 0
  ordered : first.displayOrder < second.displayOrder
  between : ∀ other ∈ outlines, first.displayOrder < other.displayOrder →
    other.displayOrder < second.displayOrder → 0 < other.depth

theorem IsIdr.isKey {outline : Outline} (idr : outline.IsIdr) : outline.IsKey := by
  unfold IsIdr at idr
  rw [IsKey, idr]
  rfl

theorem Latest.order_unique {other : Outline} (latest : Latest kind outlines order found)
    (again : Latest kind outlines order other) : found.displayOrder = other.displayOrder :=
  Nat.le_antisymm (again.last found latest.listed latest.fits latest.earlier)
    (latest.last other again.listed again.fits again.earlier)

theorem Latest.append (latest : Latest kind first next found)
    (inside : ∀ outline ∈ first, outline.displayOrder < next) (upTo : next ≤ order)
    (later : ∀ outline ∈ more, kind outline → order ≤ outline.displayOrder) :
    Latest kind (first ++ more) order found where
  listed := List.mem_append_left _ latest.listed
  fits := latest.fits
  earlier := Nat.lt_of_lt_of_le latest.earlier upTo
  last := by
    intro other member isKind before
    rcases List.mem_append.mp member with inFirst | inMore
    · exact latest.last other inFirst isKind (inside other inFirst)
    · have after := later other inMore isKind
      omega

theorem keysWithin_append (start order : Nat) :
    keysWithin (first ++ more) start order =
      keysWithin first start order + keysWithin more start order := List.countP_append

theorem keysWithin_upTo (inside : ∀ outline ∈ first, outline.displayOrder < next)
    (upTo : next ≤ order) (start : Nat) :
    keysWithin first start order = keysWithin first start next := by
  refine List.countP_congr fun outline member => ?_
  have before := inside outline member
  simp [before, Nat.lt_of_lt_of_le before upTo]

theorem keysWithin_before (before : ∀ outline ∈ first, outline.displayOrder < start) (order : Nat) :
    keysWithin first start order = 0 := by
  refine List.countP_eq_zero.mpr fun outline member => ?_
  simp [Nat.not_le.mpr (before outline member)]

theorem keysWithin_later (later : ∀ outline ∈ more, outline.IsKey → order ≤ outline.displayOrder)
    (start : Nat) : keysWithin more start order = 0 := by
  refine List.countP_eq_zero.mpr fun outline member => ?_
  simp only [Bool.and_eq_true, decide_eq_true_eq, not_and, Nat.not_lt]
  exact fun key => later outline member key.1

end Outline

namespace Gop

/-- The key pictures among frames, of which some have to be IDR pictures; the others follow from the
pictures since the last key picture and the key pictures since the last IDR picture. -/
def keyTypes (size gopsPerIdr : Nat) : Nat → Nat → List Bool → List (Option PictureType)
  | _, _, [] => []
  | keysSinceIdr, picturesSinceKey, forced :: rest =>
    if forced then some .idr :: keyTypes size gopsPerIdr 1 1 rest
    else if size ≤ picturesSinceKey then
      if keysSinceIdr = gopsPerIdr then some .idr :: keyTypes size gopsPerIdr 1 1 rest
      else some .intra :: keyTypes size gopsPerIdr (keysSinceIdr + 1) 1 rest
    else none :: keyTypes size gopsPerIdr keysSinceIdr (picturesSinceKey + 1) rest

/-- Whether a picture is a key picture, and of which type: by the pictures around it, and by the place
of its frame alone. -/
structure Types (gop : Gop) (frames : List Frame) (outlines : List Outline) (outline : Outline) :
    Prop where
  forced : MustBeIdr frames outline.displayOrder → outline.type = .idr
  others : ¬MustBeIdr frames outline.displayOrder → ∃ key idr,
    Outline.Latest Outline.IsKey outlines outline.displayOrder key ∧
    Outline.Latest Outline.IsIdr outlines outline.displayOrder idr ∧
    (outline.IsKey ↔ outline.displayOrder = key.displayOrder + gop.size) ∧
    (outline.IsKey → outline.type =
      if Outline.keysWithin outlines idr.displayOrder outline.displayOrder = gop.gopsPerIdr then .idr
      else .intra)
  alone : (keyTypes gop.size gop.gopsPerIdr 0 0 (cuesOf frames))[outline.displayOrder]? =
    some outline.type.key?

def EndsAt (gop : Gop) (outlines : List Outline) (order : Nat) : Prop :=
  ∃ key idr, Outline.Latest Outline.IsKey outlines order key ∧
    Outline.Latest Outline.IsIdr outlines order idr ∧ order = key.displayOrder + gop.size ∧
    (gop.closed = true ∨ Outline.keysWithin outlines idr.displayOrder order = gop.gopsPerIdr)

variable {size gopsPerIdr keysSinceIdr picturesSinceKey : Nat} {flags : List Bool}

theorem length_keyTypes (keysSinceIdr picturesSinceKey : Nat) (flags : List Bool) :
    (keyTypes size gopsPerIdr keysSinceIdr picturesSinceKey flags).length = flags.length := by
  induction flags generalizing keysSinceIdr picturesSinceKey with
  | nil => rfl
  | cons forced rest ih =>
      rw [keyTypes]
      split
      · exact congrArg (· + 1) (ih ..)
      split
      · split
        · exact congrArg (· + 1) (ih ..)
        · exact congrArg (· + 1) (ih ..)
      · exact congrArg (· + 1) (ih ..)

theorem keyTypes_append (flags more : List Bool) :
    keyTypes size gopsPerIdr keysSinceIdr picturesSinceKey flags <+:
      keyTypes size gopsPerIdr keysSinceIdr picturesSinceKey (flags ++ more) := by
  induction flags generalizing keysSinceIdr picturesSinceKey with
  | nil => exact List.nil_prefix
  | cons forced rest ih =>
      rw [List.cons_append, keyTypes, keyTypes]
      split
      · exact List.prefix_cons_inj _ |>.mpr ih
      split
      · split
        · exact List.prefix_cons_inj _ |>.mpr ih
        · exact List.prefix_cons_inj _ |>.mpr ih
      · exact List.prefix_cons_inj _ |>.mpr ih

theorem keyTypes_waiting (count : Nat)
    (waits : ∀ index, index < count →
      flags[index]? = some false ∧ picturesSinceKey + index < size) :
    keyTypes size gopsPerIdr keysSinceIdr picturesSinceKey flags =
      List.replicate count none ++
        keyTypes size gopsPerIdr keysSinceIdr (picturesSinceKey + count) (flags.drop count) := by
  induction count generalizing picturesSinceKey flags with
  | zero => rfl
  | succ count ih =>
      obtain ⟨first, room⟩ := waits 0 (Nat.succ_pos _)
      cases flags with
      | nil => cases first
      | cons forced rest =>
          cases first
          have later := @ih (picturesSinceKey + 1) rest fun index below => by
            obtain ⟨unforced, space⟩ := waits (index + 1) (Nat.succ_lt_succ below)
            exact ⟨unforced, by omega⟩
          rw [keyTypes, if_neg (by simp), if_neg (by omega), later, List.replicate_succ,
            List.cons_append, List.drop_succ_cons, Nat.add_assoc, Nat.add_comm 1]

theorem nextTop_cases (gop : Gop) (forced : Bool) (skipped : Nat) :
    gop.nextTop forced skipped = (.idr, { gop with keysSinceIdr := 1, picturesSinceKey := 1 }) ∧
        (forced = true ∨ gop.size ≤ gop.picturesSinceKey + skipped ∧
          gop.keysSinceIdr = gop.gopsPerIdr) ∨
      gop.nextTop forced skipped =
          (.intra, { gop with keysSinceIdr := gop.keysSinceIdr + 1, picturesSinceKey := 1 }) ∧
        forced = false ∧ gop.size ≤ gop.picturesSinceKey + skipped ∧
        gop.keysSinceIdr ≠ gop.gopsPerIdr ∨
      (∃ type, type.isKey = false ∧ gop.nextTop forced skipped =
          (type, { gop with picturesSinceKey := gop.picturesSinceKey + (1 + skipped) })) ∧
        forced = false ∧ gop.picturesSinceKey + skipped < gop.size := by
  unfold nextTop
  split
  next isForced => exact Or.inl ⟨rfl, Or.inl isForced⟩
  next unforced =>
    rw [Bool.not_eq_true] at unforced
    split
    next full =>
      split
      next last => exact Or.inl ⟨rfl, Or.inr ⟨full, last⟩⟩
      next more => exact Or.inr (Or.inl ⟨rfl, unforced, full, more⟩)
    next room =>
      refine Or.inr (Or.inr ⟨⟨_, ?_, rfl⟩, unforced, Nat.lt_of_not_le room⟩)
      split <;> rfl

end Gop

namespace Cursor

open Outline

variable {gop : Gop} {flags left : List Bool} {done : List Outline} {cursor : Cursor} {skipped : Nat}
  {forced : Bool}

structure Keyed (done : List Outline) (cursor : Cursor) : Prop where
  key : ∃ key, Latest IsKey done cursor.next key ∧
    key.displayOrder + cursor.gop.picturesSinceKey = cursor.next
  idr : ∃ idr, Latest IsIdr done cursor.next idr ∧
    keysWithin done idr.displayOrder cursor.next = cursor.gop.keysSinceIdr
  room : cursor.gop.picturesSinceKey ≤ cursor.gop.size

theorem eq_lead_of_isKey {outline : Outline} (member : outline ∈ cursor.turn skipped forced)
    (key : outline.IsKey) : outline = cursor.lead skipped forced := by
  rcases mem_turn member with same | ⟨type, _⟩
  · exact same
  · rw [IsKey, type] at key
    cases key

theorem latest_lead {kind : Outline → Prop} (done : List Outline)
    (fits : kind (cursor.lead skipped forced)) :
    Latest kind (done ++ cursor.turn skipped forced) (cursor.after skipped forced).next
      (cursor.lead skipped forced) where
  listed := List.mem_append_right _ (List.mem_cons_self ..)
  fits := fits
  earlier := Nat.lt_succ_self _
  last := fun _ _ _ before => Nat.le_of_lt_succ before

theorem keysWithin_turn {start : Nat} (early : start ≤ cursor.next + skipped) :
    keysWithin (cursor.turn skipped forced) start (cursor.after skipped forced).next =
      (cursor.lead skipped forced).type.isKey.toNat := by
  have plain : keysWithin ((cursor.marks (List.range' cursor.next skipped)
      (cursor.next + skipped)).map Mark.outline) start (cursor.after skipped forced).next = 0 := by
    refine List.countP_eq_zero.mpr fun outline member => ?_
    obtain ⟨mark, _, rfl⟩ := List.mem_map.mp member
    simp [Mark.outline, PictureType.isKey]
  have split : cursor.turn skipped forced = [cursor.lead skipped forced] ++
      (cursor.marks (List.range' cursor.next skipped) (cursor.next + skipped)).map Mark.outline := rfl
  rw [split, keysWithin_append, plain, keysWithin, List.countP_singleton, order_lead, next_after]
  cases (cursor.lead skipped forced).type.isKey <;> simp [early]

theorem Keyed.of_idr (inside : ∀ outline ∈ done, outline.displayOrder < cursor.next)
    (sized : 0 < cursor.gop.size)
    (decided : cursor.gop.nextTop forced skipped =
      (.idr, { cursor.gop with keysSinceIdr := 1, picturesSinceKey := 1 })) :
    Keyed (done ++ cursor.turn skipped forced) (cursor.after skipped forced) := by
  have type := type_lead cursor skipped forced
  have after := gop_after cursor skipped forced
  rw [decided] at type after
  have idr : (cursor.lead skipped forced).IsIdr := type
  refine ⟨⟨_, latest_lead _ idr.isKey, ?_⟩, ⟨_, latest_lead _ idr, ?_⟩, ?_⟩
  · rw [after]
    rfl
  · rw [keysWithin_append, keysWithin_turn (Nat.le_of_eq (order_lead ..)), type, after,
      keysWithin_before]
    · rfl
    · intro outline member
      have before := inside outline member
      rw [order_lead]
      omega
  · rw [after]
    exact sized

theorem Keyed.turn (keyed : Keyed done cursor)
    (inside : ∀ outline ∈ done, outline.displayOrder < cursor.next) (sized : 0 < cursor.gop.size)
    (skipped : Nat) (forced : Bool) :
    Keyed (done ++ cursor.turn skipped forced) (cursor.after skipped forced) := by
  obtain ⟨⟨key, latestKey, keyOrder⟩, ⟨idr, latestIdr, counted⟩, room⟩ := keyed
  have type := type_lead cursor skipped forced
  have after := gop_after cursor skipped forced
  have next := cursor.next_after skipped forced
  have upTo : cursor.next ≤ (cursor.after skipped forced).next := by omega
  have early : idr.displayOrder ≤ cursor.next + skipped := by
    have before := latestIdr.earlier
    omega
  rcases cursor.gop.nextTop_cases forced skipped with
    ⟨decided, _⟩ | ⟨decided, _⟩ | ⟨⟨plain, notKey, decided⟩, _, space⟩
  · exact .of_idr inside sized decided
  · rw [decided] at type after
    refine ⟨⟨_, latest_lead _ ?_, ?_⟩, ⟨idr, ?_, ?_⟩, ?_⟩
    · rw [IsKey, type]
      rfl
    · rw [after]
      rfl
    · refine latestIdr.append inside upTo fun outline member isIdr => ?_
      cases eq_lead_of_isKey member isIdr.isKey
      cases type.symm.trans isIdr
    · rw [keysWithin_append, keysWithin_upTo inside upTo, counted, keysWithin_turn early, type, after]
      rfl
    · rw [after]
      exact sized
  · rw [decided] at type after
    have noKey : ∀ outline ∈ cursor.turn skipped forced, ¬outline.IsKey := by
      intro outline member isKey
      rw [eq_lead_of_isKey member isKey, IsKey, type, notKey] at isKey
      cases isKey
    refine ⟨⟨key, ?_, ?_⟩, ⟨idr, ?_, ?_⟩, ?_⟩
    · exact latestKey.append inside upTo fun outline member isKey => absurd isKey (noKey _ member)
    · rw [after, next]
      dsimp only
      omega
    · exact latestIdr.append inside upTo fun outline member isIdr =>
        absurd isIdr.isKey (noKey _ member)
    · rw [keysWithin_append, keysWithin_upTo inside upTo, counted, keysWithin_turn early, type,
        notKey, after]
      rfl
    · rw [after]
      dsimp only
      omega

theorem Closes.waits (closes : cursor.Closes 0 left skipped forced) {index : Nat}
    (before : index < skipped) :
    left[index]? = some false ∧
      cursor.gop.picturesSinceKey + index + cursor.gop.endsClosed.toNat < cursor.gop.size ∧
      (left.drop (index + 1)).headD false = false := by
  have inside := (List.getElem?_eq_some_iff.mp closes.listed).1
  have listed : left[index]? = some left[index] :=
    List.getElem?_eq_getElem (Nat.lt_trans before inside)
  have goesOn := closes.goesOn index _ before listed
  rw [Stops, not_or, not_or, not_or, Nat.zero_add] at goesOn
  obtain ⟨unforced, _, room, next⟩ := goesOn
  refine ⟨?_, ?_, ?_⟩
  · rw [listed, Bool.not_eq_true _ |>.mp unforced]
  · simpa [Gop.reachesEnd] using room
  · simpa using next

theorem Closes.space (closes : cursor.Closes 0 left skipped forced)
    (room : cursor.gop.picturesSinceKey ≤ cursor.gop.size) :
    cursor.gop.picturesSinceKey + skipped ≤ cursor.gop.size := by
  cases skipped with
  | zero => exact room
  | succ skipped =>
      have space := (closes.waits (Nat.lt_succ_self skipped)).2.1
      omega

theorem Closes.eq_zero (closes : cursor.Closes 0 left skipped forced)
    (early : forced = true ∨
      cursor.gop.size ≤ cursor.gop.picturesSinceKey + skipped ∧ cursor.gop.endsClosed = true) :
    skipped = 0 := by
  apply Nat.eq_zero_of_not_pos
  intro positive
  have last : skipped - 1 + 1 = skipped := by omega
  obtain ⟨_, goesOn, unforced⟩ := closes.waits (Nat.sub_one_lt_of_lt positive)
  rw [last, List.headD_eq_head?_getD, List.head?_drop, closes.listed] at unforced
  rcases early with isForced | ⟨full, closed⟩
  · cases unforced.symm.trans isForced
  · rw [closed, Bool.toNat_true] at goesOn
    omega

theorem Closes.eq_zero_of_idr (closes : cursor.Closes 0 left skipped forced)
    (idr : (cursor.lead skipped forced).IsIdr) : skipped = 0 := by
  rw [IsIdr, type_lead] at idr
  apply closes.eq_zero
  rcases cursor.gop.nextTop_cases forced skipped with
    ⟨_, isForced | ⟨full, last⟩⟩ | ⟨decided, _⟩ | ⟨⟨other, notKey, decided⟩, _⟩
  · exact Or.inl isForced
  · exact Or.inr ⟨full, by simp [Gop.endsClosed, last]⟩
  · rw [decided] at idr
    cases idr
  · rw [decided] at idr
    cases idr
    cases notKey

theorem Closes.keyTypes (closes : cursor.Closes 0 left skipped forced) :
    Gop.keyTypes cursor.gop.size cursor.gop.gopsPerIdr cursor.gop.keysSinceIdr
        cursor.gop.picturesSinceKey left =
      List.replicate skipped none ++ (cursor.lead skipped forced).type.key? ::
        Gop.keyTypes cursor.gop.size cursor.gop.gopsPerIdr
          (cursor.after skipped forced).gop.keysSinceIdr
          (cursor.after skipped forced).gop.picturesSinceKey (left.drop (skipped + 1)) := by
  have split : left.drop skipped = forced :: left.drop (skipped + 1) := by
    obtain ⟨inside, same⟩ := List.getElem?_eq_some_iff.mp closes.listed
    rw [List.drop_eq_getElem_cons inside, same]
  rw [Gop.keyTypes_waiting skipped fun index before => ?_, split, Gop.keyTypes, type_lead, gop_after]
  · congr 1
    rcases cursor.gop.nextTop_cases forced skipped with
      ⟨decided, isForced | ⟨full, last⟩⟩ | ⟨decided, unforced, full, more⟩ |
        ⟨⟨plain, notKey, decided⟩, unforced, space⟩
    · rw [decided, if_pos isForced]
      rfl
    · rw [decided, if_pos full, if_pos last]
      split <;> rfl
    · rw [decided, if_neg (by simp [unforced]), if_pos full, if_neg more]
      rfl
    · rw [decided, if_neg (by simp [unforced]), if_neg (by omega), PictureType.key?, notKey,
        Nat.add_assoc, Nat.add_comm skipped]
      rfl
  · obtain ⟨unforced, space, _⟩ := closes.waits before
    exact ⟨unforced, by omega⟩

theorem Reaches.keyTypes (reaches : Reaches { gop } flags done cursor left)
    (first : flags.headD true = true) :
    ∃ known, known.length = done.length ∧
      Gop.keyTypes gop.size gop.gopsPerIdr gop.keysSinceIdr gop.picturesSinceKey flags =
        known ++ Gop.keyTypes gop.size gop.gopsPerIdr cursor.gop.keysSinceIdr
          cursor.gop.picturesSinceKey left := by
  induction reaches with
  | start => exact ⟨[], rfl, rfl⟩
  | @turn done cursor left skipped forced reaches closes ih =>
      obtain ⟨known, length, before⟩ := ih
      have aligned := reaches.aligned first
      have here := closes.keyTypes
      rw [aligned.same.size, aligned.same.gopsPerIdr] at here
      refine ⟨known ++ (List.replicate skipped none ++ [(cursor.lead skipped forced).type.key?]),
        ?_, ?_⟩
      · rw [List.length_append, List.length_append, List.length_replicate, List.length_append, length,
          length_turn (aligned.opens closes first)]
        rfl
      · rw [before, here]
        simp

theorem Reaches.keyed (reaches : Reaches { gop } flags done cursor left)
    (first : flags.headD true = true) (sized : 0 < gop.size) : done = [] ∨ Keyed done cursor := by
  induction reaches with
  | start => exact Or.inl rfl
  | @turn done cursor left skipped forced reaches closes ih =>
      have aligned := reaches.aligned first
      have size : 0 < cursor.gop.size := by rwa [aligned.same.size]
      refine Or.inr ?_
      rcases ih with nothing | keyed
      · obtain ⟨_, isForced⟩ := aligned.forced_first closes first nothing
        refine .of_idr reaches.inside size ?_
        rw [isForced]
        rfl
      · exact keyed.turn reaches.inside size skipped forced

variable {outlines : List Outline} {outline : Outline}

section

variable (stage : Stage gop flags outlines done cursor left skipped forced)
include stage

theorem Stage.cue (index : Nat) : left[index]? = flags[cursor.next + index]? := by
  have aligned := stage.aligned
  rw [aligned.left, aligned.next, List.getElem?_drop]

theorem Stage.latest (sized : 0 < gop.size) (some : done ≠ []) {order : Nat}
    (after : cursor.next ≤ order)
    (upTo : order ≤ cursor.next + skipped ∨
      order = cursor.next + skipped + 1 ∧ ¬(cursor.lead skipped forced).IsKey) :
    cursor.gop.picturesSinceKey ≤ cursor.gop.size ∧
      ∃ key idr, Latest IsKey outlines order key ∧ Latest IsIdr outlines order idr ∧
        key.displayOrder + cursor.gop.picturesSinceKey = cursor.next ∧
        keysWithin outlines idr.displayOrder order = cursor.gop.keysSinceIdr := by
  obtain ⟨⟨key, latestKey, keyOrder⟩, ⟨idr, latestIdr, counted⟩, room⟩ :=
    (stage.reaches.keyed stage.first sized).resolve_left some
  obtain ⟨more, rfl, ahead⟩ := stage.split
  have inside := stage.reaches.inside
  have later : ∀ other ∈ more, other.IsKey → order ≤ other.displayOrder := by
    intro other member isKey
    rcases ahead other member with here | beyond
    · have same := eq_lead_of_isKey here isKey
      rcases upTo with within | ⟨_, notKey⟩
      · rw [same, order_lead]
        exact within
      · exact absurd (same ▸ isKey) notKey
    · omega
  refine ⟨room, key, idr, latestKey.append inside after later,
    latestIdr.append inside after fun other member isIdr => later other member isIdr.isKey,
    keyOrder, ?_⟩
  rw [keysWithin_append, keysWithin_upTo inside after, counted, keysWithin_later later,
    Nat.add_zero]

/-- An anchor that is not forced is a key picture if, and only if, it follows upon a full group of
pictures. -/
theorem Stage.decides (sized : 0 < gop.size) (unforced : forced = false) : ∃ key idr,
    Latest IsKey outlines (cursor.next + skipped) key ∧
    Latest IsIdr outlines (cursor.next + skipped) idr ∧
    ((cursor.lead skipped forced).IsKey ↔
      cursor.next + skipped = key.displayOrder + cursor.gop.size) ∧
    ((cursor.lead skipped forced).IsKey → (cursor.lead skipped forced).type =
      if keysWithin outlines idr.displayOrder (cursor.next + skipped) = cursor.gop.gopsPerIdr
      then .idr else .intra) := by
  have some : done ≠ [] := fun nothing => by
    have isForced := (stage.forced_first nothing).2
    cases unforced.symm.trans isForced
  obtain ⟨room, key, idr, latestKey, latestIdr, keyOrder, counted⟩ :=
    stage.latest sized some (Nat.le_add_right _ skipped) (Or.inl (Nat.le_refl _))
  have space := stage.closes.space room
  refine ⟨key, idr, latestKey, latestIdr, ?_⟩
  rw [counted, IsKey, type_lead]
  rcases cursor.gop.nextTop_cases forced skipped with
    ⟨decided, isForced | ⟨full, last⟩⟩ | ⟨decided, _, full, more⟩ |
      ⟨⟨other, notKey, decided⟩, _, short⟩
  · cases unforced.symm.trans isForced
  · rw [decided, if_pos last]
    exact ⟨⟨fun _ => by omega, fun _ => rfl⟩, fun _ => rfl⟩
  · rw [decided, if_neg more]
    exact ⟨⟨fun _ => by omega, fun _ => rfl⟩, fun _ => rfl⟩
  · rw [decided]
    dsimp only
    rw [notKey]
    exact ⟨⟨fun isKey => absurd isKey Bool.false_ne_true, fun _ => by omega⟩,
      fun isKey => absurd isKey Bool.false_ne_true⟩

theorem Stage.passes (sized : 0 < gop.size) {order : Nat} (after : cursor.next ≤ order)
    (before : order < cursor.next + skipped) :
    flags[order]? = some false ∧ ∃ key idr,
      Latest IsKey outlines order key ∧ Latest IsIdr outlines order idr ∧
      order < key.displayOrder + cursor.gop.size := by
  have index : order - cursor.next < skipped := by omega
  have there : cursor.next + (order - cursor.next) = order := by omega
  obtain ⟨unforced, space, _⟩ := stage.closes.waits index
  rw [stage.cue, there] at unforced
  have begun : done ≠ [] := fun nothing => by
    have none := (stage.forced_first nothing).1
    omega
  obtain ⟨_, key, idr, latestKey, latestIdr, keyOrder, _⟩ :=
    stage.latest sized begun after (Or.inl (Nat.le_of_lt before))
  exact ⟨unforced, key, idr, latestKey, latestIdr, by omega⟩

theorem Stage.near (sized : 0 < gop.size) (member : outline ∈ cursor.turn skipped forced)
    {key : Outline} (latest : Latest IsKey outlines outline.displayOrder key) :
    outline.displayOrder ≤ key.displayOrder + gop.size := by
  obtain ⟨after, upTo⟩ := turn_upTo member
  have begun : done ≠ [] := fun nothing => by
    have none := (stage.forced_first nothing).1
    have earlier := latest.earlier
    have next := stage.aligned.next
    rw [nothing, List.length_nil] at next
    omega
  obtain ⟨room, same, _, latestSame, _, keyOrder, _⟩ :=
    stage.latest sized begun after (Or.inl upTo)
  have space := stage.closes.space room
  have unique := latest.order_unique latestSame
  rw [stage.aligned.same.size] at space
  omega

theorem Stage.types (sized : 0 < gop.size) (member : outline ∈ cursor.turn skipped forced)
    {frames : List Frame}
    (cued : flags[outline.displayOrder]? = some true ↔ MustBeIdr frames outline.displayOrder) :
    (MustBeIdr frames outline.displayOrder → outline.type = .idr) ∧
    (¬MustBeIdr frames outline.displayOrder → ∃ key idr,
      Latest IsKey outlines outline.displayOrder key ∧
      Latest IsIdr outlines outline.displayOrder idr ∧
      (outline.IsKey ↔ outline.displayOrder = key.displayOrder + gop.size) ∧
      (outline.IsKey → outline.type =
        if keysWithin outlines idr.displayOrder outline.displayOrder = gop.gopsPerIdr then .idr
        else .intra)) := by
  have same := stage.aligned.same
  rw [← cued, ← same.size, ← same.gopsPerIdr]
  rcases mem_turn member with rfl | ⟨plain, _, after, before⟩
  · have flag : flags[cursor.next + skipped]? = some forced := by
      rw [← stage.cue, stage.closes.listed]
    rw [order_lead, flag]
    constructor
    · intro isForced
      cases isForced
      exact type_lead cursor skipped true
    · intro unforced
      refine stage.decides sized ?_
      rw [← Bool.not_eq_true]
      exact fun isForced => unforced (congrArg some isForced)
  · obtain ⟨unforced, key, idr, latestKey, latestIdr, space⟩ := stage.passes sized after before
    have notKey : ¬outline.IsKey := by
      rw [IsKey, plain]
      exact Bool.false_ne_true
    rw [unforced]
    refine ⟨fun isForced => (by cases isForced), fun _ => ⟨key, idr, latestKey, latestIdr, ?_⟩⟩
    exact ⟨⟨fun isKey => absurd isKey notKey, fun _ => by omega⟩, fun isKey => absurd isKey notKey⟩

theorem Stage.alone (member : outline ∈ cursor.turn skipped forced) :
    (Gop.keyTypes gop.size gop.gopsPerIdr gop.keysSinceIdr gop.picturesSinceKey
      flags)[outline.displayOrder]? = some outline.type.key? := by
  have aligned := stage.aligned
  obtain ⟨known, length, types⟩ := stage.reaches.keyTypes stage.first
  have here := stage.closes.keyTypes
  rw [aligned.same.size, aligned.same.gopsPerIdr] at here
  have upTo := turn_upTo member
  rw [types, List.getElem?_append_right (by rw [length, ← aligned.next]; exact upTo.1), length,
    ← aligned.next, here]
  rcases mem_turn member with rfl | ⟨plain, _, after, before⟩
  · have order : (cursor.lead skipped forced).displayOrder - cursor.next = skipped :=
      Nat.add_sub_cancel_left ..
    rw [order, List.getElem?_append_right (by rw [List.length_replicate]), List.length_replicate,
      Nat.sub_self]
    rfl
  · have index : outline.displayOrder - cursor.next < skipped := by omega
    rw [List.getElem?_append_left (by rwa [List.length_replicate]),
      List.getElem?_replicate_of_lt index, plain]
    rfl

theorem Stage.apart {before : Outline}
    (consecutive : Consecutive outlines before (cursor.lead skipped forced)) :
    done ≠ [] ∧ before.displayOrder + 1 = cursor.next := by
  have aligned := stage.aligned
  have order := cursor.order_lead skipped forced
  have ordered := consecutive.ordered
  rw [order] at ordered
  obtain ⟨more, split, ahead⟩ := stage.split
  have next := aligned.next
  rcases aligned.anchored with ⟨_, nothing⟩ | ⟨top, member, depth, topOrder, _⟩
  · have none := (stage.forced_first nothing).1
    rw [nothing, List.length_nil] at next
    omega
  · refine ⟨List.ne_nil_of_mem member, ?_⟩
    have notAfter : before.displayOrder < cursor.next := by
      have listed := consecutive.listed.1
      rw [split] at listed
      rcases List.mem_append.mp listed with earlier | later
      · exact stage.reaches.inside before earlier
      · rcases ahead before later with here | beyond
        · rcases mem_turn here with rfl | ⟨_, deep, _⟩
          · omega
          · exact absurd consecutive.top.1 (Nat.ne_of_gt deep)
        · omega
    have notBefore : top.displayOrder ≤ before.displayOrder := by
      apply Nat.le_of_not_lt
      intro between
      have inside : top ∈ outlines := by
        rw [split]
        exact List.mem_append_left _ member
      have deep := consecutive.between top inside between (by omega)
      exact absurd depth (Nat.ne_of_gt deep)
    omega

theorem Stage.endsAt (sized : 0 < gop.size) (some : done ≠ [])
    (plain : ¬(cursor.lead skipped forced).IsKey)
    (ends : cursor.gop.reachesEnd skipped cursor.gop.endsClosed = true) :
    gop.EndsAt outlines (cursor.next + skipped + 1) := by
  have same := stage.aligned.same
  obtain ⟨_, key, idr, latestKey, latestIdr, keyOrder, counted⟩ :=
    stage.latest sized some (Nat.le_add_right _ (skipped + 1)) (Or.inr ⟨rfl, plain⟩)
  rw [IsKey, type_lead] at plain
  rcases cursor.gop.nextTop_cases forced skipped with
    ⟨decided, _⟩ | ⟨decided, _⟩ | ⟨_, _, short⟩
  · rw [decided] at plain
    exact absurd rfl plain
  · rw [decided] at plain
    exact absurd rfl plain
  rw [Gop.reachesEnd, decide_eq_true_eq] at ends
  cases closed : cursor.gop.endsClosed with
  | false =>
      rw [closed, Bool.toNat_false] at ends
      omega
  | true =>
      rw [closed, Bool.toNat_true, same.size] at ends
      rw [same.size] at short
      refine ⟨key, idr, latestKey, latestIdr, by omega, ?_⟩
      rw [← Nat.add_assoc] at counted
      rw [counted, ← same.closed, ← same.gopsPerIdr]
      simpa [Gop.endsClosed] using closed

theorem Stage.ends (sized : 0 < gop.size) (some : done ≠ []) (fewer : skipped < gop.bPerGroup)
    (plain : ¬(cursor.lead skipped forced).IsKey) :
    flags[cursor.next + skipped + 1]? = Option.some true ∨
      gop.EndsAt outlines (cursor.next + skipped + 1) ∨
      flags.length = cursor.next + skipped + 1 := by
  have aligned := stage.aligned
  rcases stage.closes.ends with stops | last
  · rw [Stops, Nat.zero_add, aligned.same.bPerGroup] at stops
    rcases stops with isForced | full | ends | next
    · rw [IsKey, type_lead, isForced] at plain
      exact absurd rfl plain
    · omega
    · exact Or.inr (Or.inl (stage.endsAt sized some plain ends))
    · left
      rw [List.headD_eq_head?_getD, List.head?_drop, stage.cue, ← Nat.add_assoc] at next
      cases flag : flags[cursor.next + skipped + 1]? with
      | none => simp [flag] at next
      | some value =>
          rw [flag] at next
          exact congrArg _ next
  · have length := congrArg List.length aligned.left
    rw [List.length_drop, ← aligned.next, last] at length
    right; right
    omega

theorem Stage.eq_zero_of_closed (closed : gop.closed = true)
    (isKey : (cursor.lead skipped forced).IsKey) : skipped = 0 := by
  have ends : cursor.gop.endsClosed = true := by
    rw [Gop.endsClosed, stage.aligned.same.closed, closed, Bool.true_or]
  rw [IsKey, type_lead] at isKey
  apply stage.closes.eq_zero
  rcases cursor.gop.nextTop_cases forced skipped with
    ⟨_, isForced | ⟨full, _⟩⟩ | ⟨_, _, full, _⟩ | ⟨⟨other, notKey, decided⟩, _⟩
  · exact Or.inl isForced
  · exact Or.inr ⟨full, ends⟩
  · exact Or.inr ⟨full, ends⟩
  · rw [decided] at isKey
    exact absurd (notKey.symm.trans isKey) Bool.false_ne_true

end

end Cursor

theorem Gop.fresh_of_ofConfig? {config : Config} {caps : Capabilities} {gop : Gop}
    (made : ofConfig? config caps = some gop) :
    0 < gop.size ∧ gop.keysSinceIdr = 0 ∧ gop.picturesSinceKey = 0 := by
  simp only [ofConfig?] at made
  split at made
  · cases made
    exact ⟨Nat.one_pos, rfl, rfl⟩
  next several =>
    have size : 0 < config.gopSize := by
      simp only [onlyKeys, Bool.or_eq_true, decide_eq_true_eq, not_or] at several
      omega
    split at made
    · cases made
    split at made
    · cases made
      exact ⟨size, rfl, rfl⟩
    · cases made
      exact ⟨size, rfl, rfl⟩

theorem cuesOf_prefix {frames accepted : List Frame} (within : frames <+: accepted) :
    cuesOf frames <+: cuesOf accepted := by
  obtain ⟨more, rfl⟩ := within
  cases frames with
  | nil => exact List.nil_prefix
  | cons frame rest =>
      rw [List.cons_append, cuesOf, cuesOf, List.map_append]
      exact List.prefix_append (true :: rest.map Frame.forceKey) _

theorem cue_iff {frames accepted : List Frame} (within : frames <+: accepted) {order : Nat} :
    (cuesOf frames)[order]? = some true ↔ order < frames.length ∧ MustBeIdr accepted order := by
  obtain ⟨more, rfl⟩ := within
  cases frames with
  | nil => simp [cuesOf]
  | cons frame rest =>
      cases order with
      | zero => simp [cuesOf, MustBeIdr]
      | succ order =>
          by_cases inside : order < rest.length
          · simp [cuesOf, MustBeIdr, inside, List.getElem?_append_left inside]
          · simp [cuesOf, inside]

namespace Encoder

open Recorded

variable {B : Backend} {start : Recorded B} {config : Config} {mode : BlockingMode}
  {opening encoder : Encoder B.recorded} {trail : List (Call × Except EncodeError Answer)}
  {gop : Gop} {frames accepted : List Frame} {outline : Outline}

theorem Foretold.inside (foretold : Foretold { gop } accepted frames encoder)
    (member : outline ∈ encoder.backend.requests.map Request.outline) :
    outline.displayOrder < frames.length := by
  obtain ⟨rest, script⟩ := foretold.script
  have told : outline ∈ Cursor.script (cuesOf frames) { gop } [] := by
    rw [script]
    exact List.mem_append_left _ member
  have listed := (Cursor.orders_script_subperm { gop } [] (cuesOf frames)).subset
    (List.mem_map_of_mem told)
  rw [List.nil_append, List.mem_range'_1, length_cuesOf, Nat.zero_add] at listed
  exact listed.2

theorem Foretold.stage (foretold : Foretold { gop } accepted frames encoder)
    (member : outline ∈ encoder.backend.requests.map Request.outline) :
    ∃ tail done cursor left skipped forced, (∀ flag ∈ tail, flag = false) ∧
      (tail = [] → encoder.scheduler.endOfStream = true) ∧
      Cursor.Stage gop (cuesOf frames ++ tail) (encoder.backend.requests.map Request.outline) done
        cursor left skipped forced ∧
      outline ∈ cursor.turn skipped forced := by
  have inside := foretold.inside member
  have first : ∀ tail, (cuesOf frames ++ tail).headD true = true := by
    intro tail
    cases frames with
    | nil => cases inside
    | cons frame rest => rfl
  obtain ⟨place, listed⟩ := List.mem_iff_getElem?.mp member
  have told : ∀ tail, (encoder.scheduler.endOfStream = true → tail = []) →
      encoder.backend.requests.map Request.outline <+:
        Cursor.script (cuesOf frames ++ tail) { gop } [] := by
    intro tail ends
    obtain ⟨rest, script⟩ := foretold.follows tail ends
    exact ⟨rest, script.symm⟩
  cases ended : encoder.scheduler.endOfStream with
  | true =>
      obtain ⟨done, cursor, left, skipped, forced, stage, _, here⟩ :=
        Cursor.exists_stage (told [] fun _ => rfl) (first []) listed
      exact ⟨[], done, cursor, left, skipped, forced, by simp, fun _ => rfl, stage,
        List.mem_of_getElem? here⟩
  | false =>
      obtain ⟨done, cursor, left, skipped, forced, stage, _, here⟩ :=
        Cursor.exists_stage (told [false] fun ends => by simp [ended] at ends) (first [false]) listed
      exact ⟨[false], done, cursor, left, skipped, forced, by simp, by simp, stage,
        List.mem_of_getElem? here⟩

theorem cue_append {flags tail : List Bool} (plain : ∀ flag ∈ tail, flag = false) (order : Nat) :
    (flags ++ tail)[order]? = some true ↔ flags[order]? = some true := by
  by_cases inside : order < flags.length
  · rw [List.getElem?_append_left inside]
  · rw [List.getElem?_append_right (Nat.le_of_not_lt inside),
      List.getElem?_eq_none (Nat.le_of_not_lt inside)]
    refine ⟨fun listed => ?_, fun listed => by cases listed⟩
    cases plain true (List.mem_of_getElem? listed)

theorem Foretold.types (foretold : Foretold { gop } accepted frames encoder) (sized : 0 < gop.size)
    (fresh : gop.keysSinceIdr = 0 ∧ gop.picturesSinceKey = 0)
    (member : outline ∈ encoder.backend.requests.map Request.outline) :
    gop.Types accepted (encoder.backend.requests.map Request.outline) outline := by
  have inside := foretold.inside member
  obtain ⟨tail, done, cursor, left, skipped, forced, plain, _, stage, here⟩ :=
    foretold.stage member
  have cued : (cuesOf frames ++ tail)[outline.displayOrder]? = some true ↔
      MustBeIdr accepted outline.displayOrder := by
    rw [cue_append plain, cue_iff foretold.within]
    exact and_iff_right inside
  obtain ⟨isForced, others⟩ := stage.types sized here cued
  refine ⟨isForced, others, ?_⟩
  have alone := stage.alone here
  rw [fresh.1, fresh.2] at alone
  -- as far as the frames came in, what comes after them makes no difference
  have known : outline.displayOrder < (Gop.keyTypes gop.size gop.gopsPerIdr 0 0
      (cuesOf frames)).length := by
    rw [Gop.length_keyTypes, length_cuesOf]
    exact inside
  obtain ⟨more, cues⟩ := cuesOf_prefix foretold.within
  obtain ⟨later, types⟩ := @Gop.keyTypes_append gop.size gop.gopsPerIdr 0 0 (cuesOf frames) tail
  obtain ⟨others, typesToo⟩ := @Gop.keyTypes_append gop.size gop.gopsPerIdr 0 0 (cuesOf frames) more
  rw [← types, List.getElem?_append_left known] at alone
  rw [← cues, ← typesToo, List.getElem?_append_left known, alone]

theorem Foretold.counts (foretold : Foretold { gop } accepted frames encoder) (sized : 0 < gop.size)
    (few : gop.size < 0xFFFFFFFF ∨ accepted.length < 0xFFFFFFFF)
    (member : outline ∈ encoder.backend.requests.map Request.outline) {key : Outline}
    (latest : Outline.Latest Outline.IsKey (encoder.backend.requests.map Request.outline)
      outline.displayOrder key) :
    outline.displayOrder + 1 < key.displayOrder + 0x100000000 := by
  rcases few with short | few
  · obtain ⟨_, _, _, _, _, _, _, _, stage, here⟩ := foretold.stage member
    have near := stage.near sized here latest
    omega
  · have inside := foretold.inside member
    have within := foretold.within.length_le
    omega

end Encoder

end VideoSchedule

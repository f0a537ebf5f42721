import VideoSchedule.Config
import VideoSchedule.Notice
import VideoSchedule.PictureType

/-!
Frames as a client submits them, and pictures: frames together with the state of their encoding.
-/

namespace VideoSchedule

structure Crop where
  top : Nat := 0
  bottom : Nat := 0
  left : Nat := 0
  right : Nat := 0
deriving DecidableEq, Repr, Inhabited

def Crop.isEmpty (crop : Crop) : Bool := crop == {}

structure Frame where
  pts : Int := 0
  duration : Int := 0
  forceKey : Bool := false
  crop : Crop := {}
  roi : Bool := false
  /-- Carried over to the packet of this frame. -/
  payload : Option String := none
deriving DecidableEq, Repr, Inhabited

/-- Names a picture of a window. A slot is reused under a new generation, so the handle of a picture
that has left names nothing. An index is a place in memory, where the 32 bits for it do not run out. -/
structure Handle where
  index : Nat
  generation : Nat
deriving DecidableEq, Repr, Inhabited

structure PerLevel (α : Type) where
  direct : α
  indirect : α
deriving DecidableEq, Repr, Inhabited

namespace PerLevel

variable {α : Type}

def get (values : PerLevel α) : HoldLevel → α
  | .direct => values.direct
  | .indirect => values.indirect

def set (values : PerLevel α) (level : HoldLevel) (value : α) : PerLevel α :=
  match level with
  | .direct => { values with direct := value }
  | .indirect => { values with indirect := value }

theorem get_set_self (values : PerLevel α) (level : HoldLevel) (value : α) :
    (values.set level value).get level = value := by
  cases level <;> rfl

theorem get_set_of_ne (values : PerLevel α) {level other : HoldLevel} (value : α)
    (different : other ≠ level) : (values.set level value).get other = values.get other := by
  cases level <;> cases other <;> first | rfl | exact absurd rfl different

end PerLevel

structure PictureInfo where
  displayOrder : Nat
  encodeOrder : Nat
  pts : Int
  duration : Int
  type : PictureType
  depth : Nat
  isReference : Bool
deriving DecidableEq, Repr, Inhabited

/-- A picture with the backend's image of type `ι`, which is out while the backend is asked to encode
it. Each place in `past`, `future`, `dpb` and `previous` is one hold on the picture named there. -/
structure Picture (ι : Type) where
  displayOrder : Nat
  encodeOrder : Option Nat := none
  pts : Int
  duration : Int
  forceIdr : Bool
  payload : Option String
  type : PictureType := .predicted
  depth : Nat := 0
  issued : Bool := false
  complete : Bool := false
  failed : Bool := false
  image : Option ι
  isReference : Bool := false
  /-- What a decoder keeps after decoding this picture, itself included if it is a reference. -/
  dpb : List Handle := []
  /-- References displayed earlier. -/
  past : List Handle := []
  /-- References displayed later. -/
  future : List Handle := []
  /-- The reference picture before this one in encode order. -/
  previous : Option Handle := none
  /-- Holds on this picture. Every hold is a place in a list in memory, so that 32 bits are enough. -/
  holds : PerLevel Nat := ⟨0, 0⟩
  /-- Whether this picture has given up its own holds. -/
  released : PerLevel Bool := ⟨false, false⟩
deriving DecidableEq, Repr

namespace Picture

variable {ι : Type}

def ofFrame (displayOrder : Nat) (frame : Frame) (forceIdr : Bool) (image : ι) : Picture ι where
  displayOrder := displayOrder
  pts := frame.pts
  duration := frame.duration
  forceIdr := forceIdr
  payload := frame.payload
  image := some image

def info (picture : Picture ι) : PictureInfo where
  displayOrder := picture.displayOrder
  encodeOrder := picture.encodeOrder.getD 0
  pts := picture.pts
  duration := picture.duration
  type := picture.type
  depth := picture.depth
  isReference := picture.isReference

def held (picture : Picture ι) : List Handle :=
  picture.past ++ picture.future ++ picture.dpb ++ picture.previous.toList

def retain (count : Nat) (picture : Picture ι) : Picture ι :=
  { picture with
    holds := ⟨picture.holds.direct + count, picture.holds.indirect + count⟩ }

def hold (level : HoldLevel) (picture : Picture ι) : Picture ι :=
  { picture with holds := picture.holds.set level (picture.holds.get level + 1) }

def unhold (level : HoldLevel) (picture : Picture ι) : Picture ι :=
  { picture with holds := picture.holds.set level (picture.holds.get level - 1) }

end Picture

end VideoSchedule

import VideoSchedule.Action
import VideoSchedule.Config
import VideoSchedule.PictureType

/-!
Groups of pictures. A `Gop` holds the structure that a stream gets from its configuration and its
backend, and the two counters that decide the type of the next top layer picture. They are words of
32 bits, which no sum of them leaves unless more than 2 ^ 32 - 2 pictures follow one key picture.
-/

namespace VideoSchedule

structure Gop where
  size : Nat
  closed : Bool
  gopsPerIdr : Nat
  /-- B-pictures between two top layer pictures. -/
  bPerGroup : Nat
  maxBDepth : Nat
  /-- Top layer pictures other than key pictures are generalized B-pictures. -/
  generalizedB : Bool
  multiReference : Bool
  /-- Key pictures since the last IDR picture, itself included. -/
  keysSinceIdr : Nat := 0
  /-- Pictures since the last key picture, itself included. -/
  picturesSinceKey : Nat := 0
deriving DecidableEq, Repr, Inhabited

namespace Gop

def onlyKeys (config : Config) (caps : Capabilities) : Bool :=
  caps.intraOnly || decide (config.gopSize ≤ 1)

def usesB (config : Config) (caps : Capabilities) : Bool :=
  caps.bPictures && decide (1 ≤ caps.maxFutureRefs) && decide (1 ≤ config.maxBFrames) &&
    !caps.pastOnly

/-- The structure of a stream; there is none if pictures other than key pictures are wanted from a
backend without reference pictures. -/
def ofConfig? (config : Config) (caps : Capabilities) : Option Gop :=
  let keysOnly : Gop :=
    { size := 1
      closed := if caps.intraKeyPictures then config.closedGop else true
      gopsPerIdr := if caps.intraKeyPictures then min (config.idrInterval + 1) 0xFFFFFFFF else 1
      bPerGroup := 0
      maxBDepth := 0
      generalizedB := caps.generalizedB
      multiReference := decide (1 < caps.maxPastRefs) }
  if onlyKeys config caps then some keysOnly
  else if caps.maxPastRefs < 1 then none
  else if usesB config caps then
    some { keysOnly with
      size := config.gopSize
      bPerGroup := config.maxBFrames
      maxBDepth :=
        if caps.bPictureReferences then min config.bDepth (config.maxBFrames.log2 + 1) else 1 }
  else some { keysOnly with size := config.gopSize }

def create {σ : Type} (config : Config) (caps : Capabilities) : Action σ Gop :=
  match ofConfig? config caps with
  | some gop => return gop
  | none => Action.refuse .noReferenceSupport .unsupported

def outputDelay (gop : Gop) : Nat := gop.bPerGroup

def decodeDelay (gop : Gop) : Nat := gop.maxBDepth

/-- The next key picture has to follow a top layer picture, so that no B-picture refers across. -/
def endsClosed (gop : Gop) : Bool := gop.closed || gop.keysSinceIdr == gop.gopsPerIdr

def reachesEnd (gop : Gop) (skipped : Nat) (endsClosed : Bool) : Bool :=
  decide (gop.size ≤ gop.picturesSinceKey + skipped + endsClosed.toNat)

def nextTop (gop : Gop) (forced : Bool) (skipped : Nat) : PictureType × Gop :=
  if forced then (.idr, { gop with keysSinceIdr := 1, picturesSinceKey := 1 })
  else if gop.size ≤ gop.picturesSinceKey + skipped then
    if gop.keysSinceIdr = gop.gopsPerIdr then
      (.idr, { gop with keysSinceIdr := 1, picturesSinceKey := 1 })
    else (.intra, { gop with keysSinceIdr := gop.keysSinceIdr + 1, picturesSinceKey := 1 })
  else
    (if gop.generalizedB then .bidirectional else .predicted,
      { gop with picturesSinceKey := gop.picturesSinceKey + (1 + skipped) })

end Gop

end VideoSchedule

import VideoSchedule.Action
import VideoSchedule.Config
import VideoSchedule.Tick

/-!
The decode clock. Packets leave in encode order while frames arrive in display order, so the n-th
packet is stamped with the presentation timestamp of the frame that arrived `decodeDelay` places
before it. A ring of past timestamps covers the reordering and the pictures in flight.
-/

namespace VideoSchedule

structure DecodeClock where
  ring : List Int
  outputDelay : Nat
  decodeDelay : Nat
  firstPts : Int := 0
  /-- Distance from the first frame to the one that starts the decode timestamps. -/
  offset : Int := 0
  lastDts : Option Int := none
deriving DecidableEq, Repr, Inhabited

namespace DecodeClock

def ringSize (outputDelay asyncDepth : Nat) : Nat :=
  max 1 (min (3 * maxReorderDelay + maxAsyncDepth) (3 * outputDelay + asyncDepth))

def start (outputDelay decodeDelay asyncDepth : Nat) : DecodeClock where
  ring := List.replicate (ringSize outputDelay asyncDepth) 0
  outputDelay := outputDelay
  decodeDelay := decodeDelay

def slot (clock : DecodeClock) (order : Nat) : Nat := order % clock.ring.length

def recorded (clock : DecodeClock) (order : Nat) : Int := clock.ring.getD (clock.slot order) 0

def recordInput (clock : DecodeClock) (order : Nat) (pts : Int) : DecodeClock :=
  let firstPts := if order = 0 then pts else clock.firstPts
  { clock with
    firstPts := firstPts
    offset := if order = clock.decodeDelay then Tick.saturate (pts - firstPts) else clock.offset
    ring := if 0 < clock.outputDelay then clock.ring.set (clock.slot order) pts else clock.ring }

/-- A stream of `count` frames that ends before the decode delay has passed takes its offset from
the last frame, stamped `pts`. -/
def endStream (clock : DecodeClock) (count : Nat) (pts : Int) : DecodeClock :=
  if count ≤ clock.decodeDelay then { clock with offset := Tick.saturate (pts - clock.firstPts) }
  else clock

def rawDts (clock : DecodeClock) (encodeOrder : Nat) (pts : Int) (noDelay : Bool) : Int :=
  if noDelay ∨ clock.outputDelay = 0 then pts
  else if encodeOrder < clock.decodeDelay then
    Tick.differenceOrLowest (clock.recorded encodeOrder) clock.offset
  else clock.recorded (encodeOrder - clock.decodeDelay)

def giveOut (dts : Int) : Action DecodeClock Int := do
  Action.modify ({ · with lastDts := some dts })
  return dts

/-- The decode timestamp of a picture. One that would go backwards stays at the last one. -/
def stamp (encodeOrder : Nat) (pts : Int) (noDelay : Bool) : Action DecodeClock Int := do
  let clock ← Action.get
  let wanted := clock.rawDts encodeOrder pts noDelay
  match clock.lastDts with
  | none => giveOut wanted
  | some last =>
    if wanted < last then
      Action.note (.decodeTimeClamped wanted last)
      giveOut last
    else giveOut wanted

theorem length_ring_start (outputDelay decodeDelay asyncDepth : Nat) :
    (start outputDelay decodeDelay asyncDepth).ring.length = ringSize outputDelay asyncDepth := by
  simp [start]

theorem length_ring_recordInput (clock : DecodeClock) (order : Nat) (pts : Int) :
    (clock.recordInput order pts).ring.length = clock.ring.length := by
  simp only [recordInput]
  split <;> simp

end DecodeClock

end VideoSchedule

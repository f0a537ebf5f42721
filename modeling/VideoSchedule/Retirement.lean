import VideoSchedule.Window

/-!
Retirement. A picture gives up its direct holds when it is complete, and its indirect holds once no
incomplete picture holds it. A complete picture that nobody holds indirectly leaves the window.
-/

namespace VideoSchedule.Retirement

variable {ι : Type}

/-- Gives up what a picture holds at one level; a second time nothing happens. -/
def releaseHeld (level : HoldLevel) (handle : Handle) : Action (Window ι) Unit := do
  let picture ← Window.fetch handle
  if picture.released.get level then return ()
  else if picture.previous.isNone ∧ picture.type ≠ .idr then
    Action.refuse (.noPreviousPicture picture.displayOrder) .invalidReferenceState
  else
    picture.held.forM (Window.unhold level)
    Window.alter handle fun picture =>
      { picture with released := picture.released.set level true }

def mayLeave (picture : Picture ι) : Bool :=
  picture.complete && picture.released.direct && picture.released.indirect &&
    picture.holds.indirect == 0

def retire (handle : Handle) : Action (Window ι) (Picture ι) := do
  let picture ← Window.fetch handle
  if mayLeave picture then Window.remove handle
  else Action.refuse (.stillInUse picture.displayOrder) .invalidReferenceState

def retireAll : List Handle → Action (Window ι) (List (Picture ι))
  | [] => return []
  | handle :: rest => do
    let gone ← retire handle
    let others ← retireAll rest
    return gone :: others

/-- Complete pictures that have to give up their direct holds. The last picture of the window keeps
them until the final pass, since the next one may be predicted from its lists. -/
def endsDirect (final : Bool) (tail : Option Handle) (handle : Handle) (picture : Picture ι) : Bool :=
  picture.complete && (final || some handle != tail)

def endsIndirect (picture : Picture ι) : Bool := picture.complete && picture.holds.direct == 0

def isFree (picture : Picture ι) : Bool := picture.complete && picture.holds.indirect == 0

/-- Three passes: direct holds are given up, then indirect ones, then the free pictures leave. No
pass changes what it selects by, so each selects at its start. Hands over the pictures that left, in
display order. -/
def clear (final : Bool) : Action (Window ι) (List (Picture ι)) := do
  let window ← Action.get
  (window.select (endsDirect final window.tail?)).forM (releaseHeld .direct)
  let window ← Action.get
  (window.select fun _ picture => endsIndirect picture).forM (releaseHeld .indirect)
  let window ← Action.get
  retireAll (window.select fun _ picture => isFree picture)

def dropAll : List Handle → Action (Window ι) (List (Picture ι))
  | [] => return []
  | handle :: rest => do
    let picture ← Window.remove handle
    Action.when (picture.complete = false) (Action.note (.droppedUnencoded picture.displayOrder))
    let others ← dropAll rest
    return picture :: others

def clearAll : Action (Window ι) (List (Picture ι)) := do
  dropAll (← Action.get).handles

end VideoSchedule.Retirement

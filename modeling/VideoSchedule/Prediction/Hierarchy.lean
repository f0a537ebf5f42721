import VideoSchedule.Prediction

/-!
The hierarchy of B-pictures between two pictures. The picture in the middle becomes a reference for
both halves, and so on down to the last level; what is left then is coded from the two pictures
around it. `Hierarchy.plan` says where every picture goes, in the order of encoding, and
`Hierarchy.layOut` writes the plan into the window.
-/

namespace VideoSchedule

structure Placement where
  picture : Handle
  depth : Nat
  isReference : Bool
  past : Handle
  future : Handle
deriving DecidableEq, Repr, Inhabited

namespace Hierarchy

def middle (count : Nat) : Nat := (count + 1) / 2 - 1

theorem middle_lt {count : Nat} (several : 1 < count) : middle count < count := by
  unfold middle
  omega

/-- Nothing would refer to further B-pictures: every picture has the two around the group. -/
def flat (depth : Nat) (past : Handle) (between : List Handle) (future : Handle) : List Placement :=
  between.map fun picture => { picture, depth, isReference := false, past, future }

/-- Places the pictures between two others, in the order of encoding. References are put on at most
`levels` levels, the first of which is `depth`. -/
def plan : Nat → Nat → Handle → List Handle → Handle → List Placement
  | 0, depth, past, between, future => flat depth past between future
  | levels + 1, depth, past, between, future =>
    if several : 1 < between.length then
      have inside : middle between.length < between.length := middle_lt several
      let picture := between[middle between.length]
      { picture, depth, isReference := true, past, future } ::
        (plan levels (depth + 1) past (between.take (middle between.length)) picture ++
          plan levels (depth + 1) picture (between.drop (middle between.length + 1)) future)
    else flat depth past between future

variable {ι : Type}

def futureChain (window : Window ι) : Nat → Option Handle → List Handle
  | 0, _ => []
  | _, none => []
  | count + 1, some handle =>
    handle :: futureChain window count
      ((window.find? handle).bind fun picture => picture.future.head?)

/-- Keeps the future references of `future`, and theirs, as long as `handle` is needed. A chain
longer than a decoder keeps is refused on the way. -/
def addFutureChain (handle future : Handle) : Action (Window ι) Unit := do
  let window ← Action.get
  let picture ← Window.fetch future
  (futureChain window (maxDpbSize + 1) picture.future.head?).forM fun target =>
    Prediction.addReference handle target { dpb := true }

def place (placement : Placement) (previous : Handle) : Action (Window ι) Unit := do
  let handle := placement.picture
  Window.alter handle fun picture =>
    { picture with
      type := .bidirectional
      depth := placement.depth
      isReference := placement.isReference }
  Action.when placement.isReference (Prediction.addReference handle handle { dpb := true })
  Prediction.addReference handle placement.past { reference := true, dpb := true }
  Prediction.addReference handle placement.future { reference := true, dpb := true }
  Prediction.addReference handle previous { previous := true }
  addFutureChain handle placement.future

def placeAll : List Placement → Handle → Action (Window ι) Handle
  | [], previous => return previous
  | placement :: rest, previous => do
    place placement previous
    placeAll rest (if placement.isReference then placement.picture else previous)

/-- Lays out the pictures between two others from `depth` on. Pictures at `maxDepth` are not
referred to. `previous` is the last reference picture in the order of encoding. -/
def layOut (maxDepth depth : Nat) (past : Handle) (between : List Handle) (future previous : Handle) :
    Action (Window ι) Handle :=
  if between.isEmpty then Action.fail .invalidInternalState
  else placeAll (plan (maxDepth - depth) depth past between future) previous

def layOutSlice (maxDepth depth : Nat) (order : List Handle) (first last : Nat) (previous : Handle) :
    Action (Window ι) Handle :=
  match order[first]?, order[last]? with
  | some past, some future =>
    layOut maxDepth depth past ((order.take last).drop (first + 1)) future previous
  | _, _ => Action.fail .invalidInternalState

end Hierarchy

end VideoSchedule

import VideoSchedule.Prediction

/-!
Anchors: pictures of the top layer. They are predicted from the reference pictures that were encoded
most recently, which `PastPictures` holds on to.
-/

namespace VideoSchedule

structure PastPictures where
  /-- Oldest first. -/
  recent : List Handle := []
  /-- Predict from all of them and not only from the picture before. -/
  multiReference : Bool
deriving DecidableEq, Repr, Inhabited

namespace PastPictures

variable {ι : Type}

def distance (first second : Nat) : Nat := (first - second) + (second - first)

/-- Whether `first` goes before `second`, seen from `order`: the nearer one, of two at the same
distance the earlier one. -/
def precedes (order first second : Nat) : Bool :=
  decide (distance order first < distance order second) ||
    (distance order first == distance order second && decide (first ≤ second))

def insertByDistance (order : Nat) (candidate : Handle × Nat) :
    List (Handle × Nat) → List (Handle × Nat)
  | [] => [candidate]
  | next :: rest =>
    if precedes order candidate.2 next.2 then candidate :: next :: rest
    else next :: insertByDistance order candidate rest

def sortByDistance (order : Nat) (candidates : List (Handle × Nat)) : List (Handle × Nat) :=
  candidates.foldr (insertByDistance order) []

def withOrders (window : Window ι) : List Handle → Except EncodeError (List (Handle × Nat))
  | [] => .ok []
  | handle :: rest =>
    match window.find? handle with
    | none => .error .invalidReferenceState
    | some picture => (withOrders window rest).map ((handle, picture.displayOrder) :: ·)

def nearestFirst (past : PastPictures) (handle : Handle) : Action (Window ι) (List Handle) := do
  let window ← Action.get
  let picture ← Window.fetch handle
  let candidates ← Action.ofExcept (withOrders window past.recent)
  return (sortByDistance picture.displayOrder candidates).map Prod.fst

def addTargets (past : PastPictures) (handle : Handle) (start : Option Handle) (roles : Roles) :
    Action (Window ι) Unit :=
  if past.multiReference then do
    let targets ← past.nearestFirst handle
    targets.forM fun target => Prediction.addReference handle target roles
  else
    match start with
    | none => Action.refuse .nothingToPredictFrom .invalidReferenceState
    | some start => Prediction.addReference handle start roles

/-- Fills the lists of an anchor. `start` is the last issued picture displayed before it, and
`skipped` counts the B-pictures between them. A key picture keeps what those need but is not
predicted, and an IDR picture has nothing but itself. -/
def buildAnchor (past : PastPictures) (handle : Handle) (start : Option Handle) (skipped : Nat) :
    Action (Window ι) Unit := do
  Prediction.addReference handle handle { dpb := true }
  let picture ← Window.fetch handle
  if picture.type = .idr then return ()
  else
    past.addTargets handle start
      { reference := !picture.type.isKey, dpb := decide (0 < skipped) }
    let previous ← Action.require past.recent.getLast? .invalidReferenceState
    Prediction.addReference handle previous { previous := true }

def releaseRecent : Action (PastPictures × Window ι) Unit := do
  let (past, _) ← Action.get
  Action.modify fun (past, window) => ({ past with recent := [] }, window)
  past.recent.forM fun handle => Action.onSecond (Window.unhold .direct handle)

def releaseOldest : Action (PastPictures × Window ι) Unit := do
  let (past, _) ← Action.get
  match past.recent with
  | [] => return ()
  | oldest :: rest =>
    Action.modify fun (past, window) => ({ past with recent := rest }, window)
    Action.onSecond (Window.unhold .direct oldest)

def makeRoom (type : PictureType) : Action (PastPictures × Window ι) Unit := do
  let (past, _) ← Action.get
  if type = .idr then releaseRecent
  else if maxListReferences ≤ past.recent.length then releaseOldest
  else return ()

def addRecent (handle : Handle) : Action (PastPictures × Window ι) Unit := do
  let picture ← Action.onSecond (Window.fetch handle)
  makeRoom picture.type
  Action.modify fun (past, window) => ({ past with recent := past.recent ++ [handle] }, window)
  Action.onSecond (Window.alter handle (·.hold .direct))

end PastPictures

end VideoSchedule

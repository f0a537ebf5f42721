import VideoSchedule.Picture

/-!
Backends: what an encoder expects of the hardware it drives. The encoder decides what is encoded and
when; a backend makes images of frames, encodes them, collects the coded bytes and frees the images.
-/

namespace VideoSchedule

structure ReferencePicture (ι : Type) where
  info : PictureInfo
  image : ι
deriving DecidableEq, Repr

structure Request (ι : Type) where
  picture : PictureInfo
  image : ι
  past : List (ReferencePicture ι)
  future : List (ReferencePicture ι)
  /-- Pictures that a decoder keeps after this one, other than itself. -/
  dpb : List (ReferencePicture ι)
deriving DecidableEq, Repr

/-- Every operation may change the state of the backend, whether it succeeds or not. -/
structure Backend where
  State : Type
  Image : Type
  Promise : Type
  Coded : Type
  capabilities : State → Capabilities
  alloc : Frame → State → Except BackendError Image × State
  issue : Request Image → State → Except BackendError Promise × State
  isReady : State → Promise → Bool
  sync : Promise → State → Except BackendError Coded × State
  output : Image → Coded → State → Except BackendError (List UInt8) × State
  free : Image → State → State

end VideoSchedule

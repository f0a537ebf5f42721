import VideoSchedule.Config

/-!
Options of the schedule trace. An option is written `--name value` and given at most once, unless it
may be repeated; a switch is written `--name` and may be given again. Nothing else is accepted.
-/

namespace VideoSchedule.Trace

inductive Mode where
  | sync
  | async
  | threaded
deriving DecidableEq, Repr, Inhabited

structure Options where
  frames : Nat := 16
  gopSize : Nat := 8
  bFrames : Nat := 1
  idrInterval : Nat := 0
  bDepth : Nat := 1
  asyncDepth : Nat := 2
  framerate : Nat := 30
  mode : Mode := .sync
  forceIdr : List Nat := []
  closedGop : Bool := false
  output : Option String := none
deriving DecidableEq, Repr, Inhabited

inductive UsageError where
  | unexpected (argument : String)
  | unknownOption (name : String)
  | missingValue (name : String)
  | badValue (name value : String)
  | repeated (name : String)
deriving DecidableEq, Repr, Inhabited

def UsageError.message : UsageError → String
  | unexpected argument => "unexpected argument: " ++ argument
  | unknownOption name => "unknown option: " ++ name
  | missingValue name => "no value for option " ++ name
  | badValue name value => "bad value for option " ++ name ++ ": " ++ value
  | repeated name => "option given twice: " ++ name

structure Given where
  frames : Option Nat := none
  gopSize : Option Nat := none
  bFrames : Option Nat := none
  idrInterval : Option Nat := none
  bDepth : Option Nat := none
  asyncDepth : Option Nat := none
  framerate : Option Nat := none
  mode : Option Mode := none
  forceIdr : List Nat := []
  closedGop : Bool := false
  output : Option String := none
deriving DecidableEq, Repr, Inhabited

def Given.options (given : Given) : Options :=
  let usual : Options := {}
  { frames := given.frames.getD usual.frames
    gopSize := given.gopSize.getD usual.gopSize
    bFrames := given.bFrames.getD usual.bFrames
    idrInterval := given.idrInterval.getD usual.idrInterval
    bDepth := given.bDepth.getD usual.bDepth
    asyncDepth := given.asyncDepth.getD usual.asyncDepth
    framerate := given.framerate.getD usual.framerate
    mode := given.mode.getD usual.mode
    forceIdr := given.forceIdr
    closedGop := given.closedGop
    output := given.output }

def digitsValue : List Char → Nat → Option Nat
  | [], value => some value
  | digit :: rest, value =>
    if digit.isDigit then digitsValue rest (10 * value + (digit.toNat - '0'.toNat)) else none

/-- A number below `2 ^ bits` in decimal digits, after at most one plus sign. -/
def number? (bits : Nat) (text : String) : Option Nat :=
  let digits := match text.toList with
    | '+' :: rest => rest
    | all => all
  if digits.isEmpty then none
  else (digitsValue digits 0).filter fun value => decide (value < Nat.pow 2 bits)

def mode? (text : String) : Option Mode :=
  if text = "sync" then some .sync
  else if text = "async" then some .async
  else if text = "threaded" then some .threaded
  else none

def valueOf {α : Type} (name text : String) (read : String → Option α) : Except UsageError α :=
  match read text with
  | some value => .ok value
  | none => .error (.badValue name text)

def once {α : Type} (slot : Option α) (name text : String) (read : String → Option α) :
    Except UsageError (Option α) :=
  if slot.isSome then .error (.repeated name) else (valueOf name text read).map some

def word : String → Option Nat := number? 32

def longWord : String → Option Nat := number? 64

def optionNames : List String :=
  ["--frames", "--gop-size", "--b-frames", "--idr-interval", "--b-depth", "--async-depth",
    "--framerate", "--mode", "--force-idr", "--output"]

def assign (given : Given) (name text : String) : Except UsageError Given :=
  match name with
  | "--frames" => (once given.frames name text longWord).map ({ given with frames := · })
  | "--gop-size" => (once given.gopSize name text word).map ({ given with gopSize := · })
  | "--b-frames" => (once given.bFrames name text word).map ({ given with bFrames := · })
  | "--idr-interval" => (once given.idrInterval name text word).map ({ given with idrInterval := · })
  | "--b-depth" => (once given.bDepth name text word).map ({ given with bDepth := · })
  | "--async-depth" => (once given.asyncDepth name text word).map ({ given with asyncDepth := · })
  | "--framerate" => (once given.framerate name text word).map ({ given with framerate := · })
  | "--mode" => (once given.mode name text mode?).map ({ given with mode := · })
  | "--force-idr" =>
    (valueOf name text longWord).map fun order => { given with forceIdr := given.forceIdr ++ [order] }
  | "--output" => (once given.output name text some).map ({ given with output := · })
  | _ => .error (.unknownOption name)

/-- Reads arguments from left to right. After a bare `--` nothing more may come. -/
def readArguments (given : Given) : List String → Except UsageError Given
  | [] => .ok given
  | "--" :: rest =>
    match rest with
    | [] => .ok given
    | argument :: _ => .error (.unexpected argument)
  | "--closed-gop" :: rest => readArguments { given with closedGop := true } rest
  | name :: rest =>
    if !name.startsWith "-" then .error (.unexpected name)
    else if !optionNames.contains name then .error (.unknownOption name)
    else
      match rest with
      | [] => .error (.missingValue name)
      | text :: later =>
        match assign given name text with
        | .ok more => readArguments more later
        | .error cause => .error cause

def parse (arguments : List String) : Except UsageError Options :=
  (readArguments {} arguments).map Given.options

end VideoSchedule.Trace

import VideoSchedule.Trace

/-! The command line of the schedule trace. -/

namespace VideoSchedule.Trace

def Event.perform (file : Option IO.FS.Handle) : Event → IO Bool
  | .line text => do
    IO.println text
    (← IO.getStdout).flush
    return true
  | .bytes chunk =>
    match file with
    | none => return true
    | some handle => do
      try
        handle.write ⟨chunk.toArray⟩
        handle.flush
        return true
      catch _ => return false

def performAll (file : Option IO.FS.Handle) : List Event → IO Bool
  | [] => return true
  | event :: rest => do
    if ← event.perform file then performAll file rest else return false

def fail (complaint : String) : IO UInt32 := do
  IO.eprintln complaint
  return 101

def Report.perform (report : Report) (file : Option IO.FS.Handle) : IO UInt32 := do
  if ← performAll file report.events then
    if let some complaint := report.complaint then IO.eprintln complaint
    return UInt32.ofNat report.exitCode
  else fail "cannot write the file"

end VideoSchedule.Trace

open VideoSchedule.Trace

def main (arguments : List String) : IO UInt32 := do
  match prepare (parse arguments) with
  | .error report => report.perform none
  | .ok (options, encoder) =>
    match options.output with
    | none => (trace options encoder).perform none
    | some path =>
      match ← (IO.FS.Handle.mk path .write).toBaseIO with
      | .error _ => fail "cannot make the file"
      | .ok handle => (trace options encoder).perform (some handle)

/-!
Where a bitstream is written. A path names a file that can be made if the way to it leads through
directories and its last part is a proper name in a directory that takes new files. A symbolic link
on the way, or at its end, stands for the path that it holds.
-/

namespace VideoSchedule.Trace

inductive Destination where
  | accepted
  | refused
  /-- It is made and has no room for a single byte. -/
  | full
  /-- It is where the program prints. -/
  | standardOutput
deriving DecidableEq, Repr, Inhabited

inductive Entry where
  | directory (takesFiles : Bool)
  | link (target : String)
  | device (destination : Destination)
deriving DecidableEq, Repr, Inhabited

/-- What there is, each under the names that lead to it from the root. -/
structure FileTree where
  current : List String
  entries : List (List String × Entry)
deriving DecidableEq, Repr, Inhabited

namespace FileTree

def maxName : Nat := 255

def maxPath : Nat := 4095

def maxLinks : Nat := 40

def names (path : String) : List String := path.splitOn "/"

def start (place : List String) (path : String) : List String :=
  if path.startsWith "/" then [] else place

def newFile (tree : FileTree) (place : List String) (name : String) : Destination :=
  if tree.entries.lookup place = some (.directory true) ∧ name.utf8ByteSize ≤ maxName then .accepted
  else .refused

/-- Follows names from a place. An empty name and a dot stay there, two dots go up, as far as the
root; names that end at a directory name no file. -/
def follow (tree : FileTree) (links : Nat) (place : List String) : List String → Destination
  | [] => .refused
  | name :: rest =>
    if name = "" ∨ name = "." then tree.follow links place rest
    else if name = ".." then tree.follow links place.dropLast rest
    else
      match tree.entries.lookup (place ++ [name]) with
      | some (.directory _) => tree.follow links (place ++ [name]) rest
      | some (.device destination) => if rest.isEmpty then destination else .refused
      | some (.link target) =>
        match links with
        | 0 => .refused
        | left + 1 => tree.follow left (start place target) (names target ++ rest)
      | none => if rest.isEmpty then tree.newFile place name else .refused
termination_by path => (links, path.length)

def destination (tree : FileTree) (path : String) : Destination :=
  if maxPath < path.utf8ByteSize then .refused
  else tree.follow maxLinks (start tree.current path) (names path)

end FileTree

end VideoSchedule.Trace

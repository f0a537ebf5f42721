/-!
The four kinds of coded picture, their names and their codes.
-/

namespace VideoSchedule

inductive PictureType where
  | idr
  | intra
  | predicted
  | bidirectional
deriving DecidableEq, Repr, Inhabited

namespace PictureType

def isKey : PictureType → Bool
  | idr | intra => true
  | predicted | bidirectional => false

def name : PictureType → String
  | idr => "IDR"
  | intra => "I"
  | predicted => "P"
  | bidirectional => "B"

def code : PictureType → UInt8
  | idr => 0
  | intra => 1
  | predicted => 2
  | bidirectional => 3

def ofCode? (code : UInt8) : Option PictureType :=
  if code = 0 then some idr
  else if code = 1 then some intra
  else if code = 2 then some predicted
  else if code = 3 then some bidirectional
  else none

theorem ofCode?_code (type : PictureType) : ofCode? type.code = some type := by
  cases type <;> rfl

end PictureType

end VideoSchedule

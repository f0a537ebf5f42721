import VideoSchedule.PictureType

/-!
Packets that describe a coded picture instead of holding its image: its type, its orders, and the
display orders of its references and of the pictures the decoder keeps.
-/

namespace VideoSchedule

structure Packet where
  displayOrder : UInt64 := 0
  encodeOrder : UInt64 := 0
  type : PictureType := .predicted
  depth : Nat := 0
  isReference : Bool := false
  past : List UInt64 := []
  future : List UInt64 := []
  dpb : List UInt64 := []
deriving DecidableEq, Repr, Inhabited

inductive PacketError where
  | fieldTooLarge
  | tooShort (length : Nat)
  | checksumMismatch
  | badMagic (found : List UInt8)
  | endsEarly
  | badType (code : UInt8)
deriving DecidableEq, Repr, Inhabited

def PacketError.message : PacketError → String
  | fieldTooLarge => "number too large to fit in target type"
  | tooShort length => "packet too short: " ++ toString length ++ " bytes"
  | checksumMismatch => "packet checksum mismatch"
  | badMagic found =>
      "invalid packet magic [" ++ ", ".intercalate (found.map fun byte => toString byte.toNat) ++ "]"
  | endsEarly => "failed to fill whole buffer"
  | badType code => "invalid picture type " ++ toString code.toNat

end VideoSchedule

import VideoSchedule.Checksum
import VideoSchedule.Packet
import VideoSchedule.Packet.LittleEndian

/-!
Packets as bytes: the letters DUMY, type, depth, reference flag, three counts, display order,
encode order, the listed orders, and the CRC-32 of all that. Single fields take a byte, orders take
eight, the checksum four, lowest byte first.
-/

namespace VideoSchedule.Packet

def magic : List UInt8 := [68, 85, 77, 89]

structure Writable (packet : Packet) : Prop where
  depth_le : packet.depth ≤ 255
  past_le : packet.past.length ≤ 255
  future_le : packet.future.length ≤ 255
  dpb_le : packet.dpb.length ≤ 255

instance (packet : Packet) : Decidable packet.Writable :=
  decidable_of_iff
    (packet.depth ≤ 255 ∧ packet.past.length ≤ 255 ∧ packet.future.length ≤ 255 ∧
      packet.dpb.length ≤ 255)
    ⟨fun ⟨depth, past, future, dpb⟩ => ⟨depth, past, future, dpb⟩,
      fun ⟨depth, past, future, dpb⟩ => ⟨depth, past, future, dpb⟩⟩

def orderBytes (order : UInt64) : List UInt8 := LittleEndian.encode 8 order.toNat

def payload (packet : Packet) : List UInt8 :=
  magic ++
    [packet.type.code, UInt8.ofNat packet.depth, if packet.isReference then 1 else 0,
      UInt8.ofNat packet.past.length, UInt8.ofNat packet.future.length,
      UInt8.ofNat packet.dpb.length] ++
    orderBytes packet.displayOrder ++ orderBytes packet.encodeOrder ++
    (packet.past ++ packet.future ++ packet.dpb).flatMap orderBytes

def checksumBytes (checksum : List UInt8 → UInt32) (body : List UInt8) : List UInt8 :=
  LittleEndian.encode 4 (checksum body).toNat

def write (checksum : List UInt8 → UInt32) (packet : Packet) : Except PacketError (List UInt8) :=
  if packet.Writable then .ok (packet.payload ++ checksumBytes checksum packet.payload)
  else .error .fieldTooLarge

def toBytes (packet : Packet) : Except PacketError (List UInt8) := packet.write Checksum.crc32

abbrev Reader (α : Type) := StateT (List UInt8) (Except PacketError) α

def readBytes (count : Nat) : Reader (List UInt8) := fun bytes =>
  if bytes.length < count then .error .endsEarly else .ok (bytes.take count, bytes.drop count)

def readByte : Reader UInt8 := fun bytes =>
  match bytes with
  | [] => .error .endsEarly
  | byte :: rest => .ok (byte, rest)

def readOrder : Reader UInt64 := do
  return UInt64.ofNat (LittleEndian.decode (← readBytes 8))

def readOrders : Nat → Reader (List UInt64)
  | 0 => return []
  | count + 1 => do
    let first ← readOrder
    let rest ← readOrders count
    return first :: rest

def readMagic : Reader Unit := do
  let found ← readBytes 4
  if found ≠ magic then throw (.badMagic found)

def readType : Reader PictureType := do
  let code ← readByte
  match PictureType.ofCode? code with
  | some type => return type
  | none => throw (.badType code)

def readPayload : Reader Packet := do
  readMagic
  let type ← readType
  let depth ← readByte
  let flag ← readByte
  let pastCount ← readByte
  let futureCount ← readByte
  let dpbCount ← readByte
  let displayOrder ← readOrder
  let encodeOrder ← readOrder
  let past ← readOrders pastCount.toNat
  let future ← readOrders futureCount.toNat
  let dpb ← readOrders dpbCount.toNat
  return {
    displayOrder, encodeOrder, type, past, future, dpb
    depth := depth.toNat
    isReference := flag != 0 }

/-- Reads a packet; bytes between the last listed order and the checksum are ignored. -/
def read (checksum : List UInt8 → UInt32) (bytes : List UInt8) : Except PacketError Packet :=
  if bytes.length < 8 then .error (.tooShort bytes.length)
  else
    let body := bytes.take (bytes.length - 4)
    if checksumBytes checksum body ≠ bytes.drop (bytes.length - 4) then .error .checksumMismatch
    else
      match readPayload body with
      | .ok (packet, _) => .ok packet
      | .error cause => .error cause

def ofBytes : List UInt8 → Except PacketError Packet := read Checksum.crc32

end VideoSchedule.Packet

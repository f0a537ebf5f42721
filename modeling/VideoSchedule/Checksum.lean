/-!
CRC-32 with the reflected polynomial `0xEDB88320`, taken over lists of bytes. The register is a
left fold over the bytes, so the checksum of a stream can be taken piece by piece.
-/

namespace VideoSchedule.Checksum

def polynomial : UInt32 := 0xEDB88320

def shift (register : UInt32) : UInt32 :=
  if register &&& 1 = 1 then (register >>> 1) ^^^ polynomial else register >>> 1

def shifts : Nat → UInt32 → UInt32
  | 0, register => register
  | count + 1, register => shifts count (shift register)

def addByte (register : UInt32) (byte : UInt8) : UInt32 := shifts 8 (register ^^^ byte.toUInt32)

def initial : UInt32 := 0xFFFFFFFF

def addBytes (register : UInt32) (bytes : List UInt8) : UInt32 := bytes.foldl addByte register

def finish (register : UInt32) : UInt32 := register ^^^ 0xFFFFFFFF

def crc32 (bytes : List UInt8) : UInt32 := finish (addBytes initial bytes)

/-- The check value of this checksum, taken over the digits from one to nine. -/
example : crc32 [49, 50, 51, 52, 53, 54, 55, 56, 57] = 0xCBF43926 := by decide +kernel

theorem addBytes_append (register : UInt32) (first second : List UInt8) :
    addBytes register (first ++ second) = addBytes (addBytes register first) second := by
  simp [addBytes]

end VideoSchedule.Checksum

/-!
Bytes read as text in UTF-8. A longest run of bytes that begins a character and does not complete it
is read as one replacement character, and so is a byte that begins none.
-/

namespace VideoSchedule.Trace.Utf8

def replacement : Char := '\ufffd'

structure Begun where
  value : Nat
  /-- Bytes to come after the next one. -/
  later : Nat
  low : UInt8 := 0x80
  high : UInt8 := 0xbf
deriving DecidableEq, Repr

structure Reader where
  /-- Characters so far, the latest first. -/
  text : List Char := []
  begun : Option Begun := none
deriving DecidableEq, Repr

namespace Reader

def put (reader : Reader) (char : Char) : Reader :=
  { text := char :: reader.text }

/-- The first byte of a character. The bounds of the second one keep out longer forms than needed,
surrogates and numbers past the last character. -/
def first (reader : Reader) (byte : UInt8) : Reader :=
  let value := byte.toNat
  if byte < 0x80 then reader.put (Char.ofNat value)
  else if byte < 0xc2 then reader.put replacement
  else if byte < 0xe0 then { reader with begun := some { value := value % 32, later := 0 } }
  else if byte < 0xf0 then
    { reader with
      begun := some {
        value := value % 16
        later := 1
        low := if byte = 0xe0 then 0xa0 else 0x80
        high := if byte = 0xed then 0x9f else 0xbf } }
  else if byte < 0xf5 then
    { reader with
      begun := some {
        value := value % 8
        later := 2
        low := if byte = 0xf0 then 0x90 else 0x80
        high := if byte = 0xf4 then 0x8f else 0xbf } }
  else reader.put replacement

def next (reader : Reader) (begun : Begun) (byte : UInt8) : Reader :=
  let value := 64 * begun.value + byte.toNat % 64
  match begun.later with
  | 0 => reader.put (Char.ofNat value)
  | later + 1 => { reader with begun := some { value, later } }

def read (reader : Reader) (byte : UInt8) : Reader :=
  match reader.begun with
  | none => reader.first byte
  | some begun =>
    if begun.low ≤ byte ∧ byte ≤ begun.high then reader.next begun byte
    else (reader.put replacement).first byte

def finish (reader : Reader) : List Char :=
  match reader.begun with
  | none => reader.text.reverse
  | some _ => (reader.put replacement).text.reverse

end Reader

def decode (bytes : List UInt8) : String :=
  String.ofList (bytes.foldl Reader.read {}).finish

def withoutReturn (line : String) : String :=
  if line.endsWith "\r" then (line.dropEnd 1).toString else line

/-- Lines end with a line feed, or with a carriage return and a line feed. The last one need not
end. -/
def lines (text : String) : List String :=
  let pieces := text.splitOn "\n"
  pieces.dropLast.map withoutReturn ++ pieces.getLast?.toList.filter (· ≠ "")

end VideoSchedule.Trace.Utf8

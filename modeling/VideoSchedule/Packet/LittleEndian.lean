/-!
Numbers as bytes, lowest byte first.
-/

namespace VideoSchedule.LittleEndian

def encode : Nat → Nat → List UInt8
  | 0, _ => []
  | count + 1, number => UInt8.ofNat number :: encode count (number / 256)

def decode : List UInt8 → Nat
  | [] => 0
  | byte :: rest => byte.toNat + 256 * decode rest

theorem length_encode (count number : Nat) : (encode count number).length = count := by
  induction count generalizing number with
  | zero => rfl
  | succ count ih => simp [encode, ih]

theorem decode_encode (count number : Nat) :
    decode (encode count number) = number % Nat.pow 256 count := by
  induction count generalizing number with
  | zero => simp [encode, decode, Nat.mod_one]
  | succ count ih =>
      have power : Nat.pow 256 (count + 1) = 256 * Nat.pow 256 count := Nat.pow_succ'
      rw [power, Nat.mod_mul, ← ih, encode, decode, UInt8.toNat_ofNat']

theorem decode_lt (bytes : List UInt8) : decode bytes < Nat.pow 256 bytes.length := by
  induction bytes with
  | nil => simp [decode]
  | cons byte rest ih =>
      have small := byte.toNat_lt
      have power : Nat.pow 256 (rest.length + 1) = 256 * Nat.pow 256 rest.length := Nat.pow_succ'
      rw [List.length_cons, power, decode]
      omega

theorem decode_lt_of_length_le {bytes : List UInt8} {count : Nat} (short : bytes.length ≤ count) :
    decode bytes < Nat.pow 256 count :=
  Nat.lt_of_lt_of_le (decode_lt bytes) (Nat.pow_le_pow_right (by decide) short)

theorem encode_decode (bytes : List UInt8) : encode bytes.length (decode bytes) = bytes := by
  induction bytes with
  | nil => rfl
  | cons byte rest ih =>
      have small := byte.toNat_lt
      have high : (byte.toNat + 256 * decode rest) / 256 = decode rest := by omega
      simp only [List.length_cons, encode, decode, high, ih]
      congr 1
      apply UInt8.toNat_inj.mp
      rw [UInt8.toNat_ofNat']
      omega

end VideoSchedule.LittleEndian

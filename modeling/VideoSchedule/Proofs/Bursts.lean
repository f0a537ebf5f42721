import VideoSchedule.Proofs.Codec

/-!
Damaged packets. A shift of the checksum's register is linear and loses nothing, so registers that
differ still differ after the same bytes, and four bytes taken into one register can be told from
any other four. All packets with the right checksum leave the same register behind, checksum
included, and a packet with damage within four bytes therefore leaves another one.
-/

namespace VideoSchedule

namespace Checksum

def feedback (register : UInt32) : UInt32 := if register.toNat % 2 = 1 then polynomial else 0

theorem shift_eq (register : UInt32) : shift register = (register >>> 1) ^^^ feedback register := by
  have low : register &&& 1 = 1 ↔ register.toNat % 2 = 1 := by
    rw [← UInt32.toNat_inj, UInt32.toNat_and]
    exact Nat.and_one_is_mod _ ▸ Iff.rfl
  unfold shift feedback
  simp only [low]
  split <;> simp

theorem feedback_xor (first second : UInt32) :
    feedback (first ^^^ second) = feedback first ^^^ feedback second := by
  have low : (first ^^^ second).toNat % 2 = (first.toNat % 2) ^^^ (second.toNat % 2) := by
    rw [UInt32.toNat_xor]
    exact @Nat.xor_mod_two_pow _ _ 1
  unfold feedback
  rw [low]
  rcases Nat.mod_two_eq_zero_or_one first.toNat with firstLow | firstLow <;>
    rcases Nat.mod_two_eq_zero_or_one second.toNat with secondLow | secondLow <;>
      simp [firstLow, secondLow]

theorem shift_xor (first second : UInt32) :
    shift (first ^^^ second) = shift first ^^^ shift second := by
  rw [shift_eq, shift_eq, shift_eq, feedback_xor, UInt32.shiftRight_xor]
  ac_rfl

theorem shifts_xor (count : Nat) (first second : UInt32) :
    shifts count (first ^^^ second) = shifts count first ^^^ shifts count second := by
  induction count generalizing first second with
  | zero => rfl
  | succ count ih => rw [shifts, shifts, shifts, shift_xor, ih]

theorem toNat_half (register : UInt32) : (register >>> 1).toNat = register.toNat / 2 := by
  rw [UInt32.toNat_shiftRight]
  simp [Nat.shiftRight_eq_div_pow]

/-- The polynomial has the top bit, which a shift leaves free, so it shows which bit left. -/
theorem eq_zero_of_shift_eq_zero {register : UInt32} (gone : shift register = 0) :
    register = 0 := by
  rw [shift_eq, UInt32.xor_eq_zero_iff, ← UInt32.toNat_inj, toNat_half] at gone
  have bound := register.toNat_lt
  rw [← UInt32.toNat_inj]
  unfold feedback at gone
  split at gone
  next odd =>
    have top : polynomial.toNat = 0xEDB88320 := rfl
    omega
  next even =>
    have none : (0 : UInt32).toNat = 0 := rfl
    omega

theorem shift_injective {first second : UInt32} (same : shift first = shift second) :
    first = second := by
  rw [← UInt32.xor_eq_zero_iff] at same ⊢
  rw [← shift_xor] at same
  exact eq_zero_of_shift_eq_zero same

theorem shifts_injective (count : Nat) {first second : UInt32}
    (same : shifts count first = shifts count second) : first = second := by
  induction count generalizing first second with
  | zero => exact same
  | succ count ih => exact shift_injective (ih same)

theorem shifts_shifts (first second : Nat) (register : UInt32) :
    shifts second (shifts first register) = shifts (first + second) register := by
  induction first generalizing register with
  | zero => rw [Nat.zero_add, shifts]
  | succ first ih => rw [Nat.succ_add, shifts, shifts, ih]

/-! Words taken into the register. -/

theorem shift_double {number : Nat} (small : 2 * number < 0x100000000) :
    shift (UInt32.ofNat (2 * number)) = UInt32.ofNat number := by
  have whole : (UInt32.ofNat (2 * number)).toNat = 2 * number := UInt32.toNat_ofNat_of_lt' small
  have half : (UInt32.ofNat number).toNat = number :=
    UInt32.toNat_ofNat_of_lt' (show number < 0x100000000 by omega)
  rw [shift_eq, feedback, whole, if_neg (by omega), UInt32.xor_zero, ← UInt32.toNat_inj,
    toNat_half, whole, half]
  omega

theorem shifts_multiple (count : Nat) {number : Nat}
    (small : Nat.pow 2 count * number < 0x100000000) :
    shifts count (UInt32.ofNat (Nat.pow 2 count * number)) = UInt32.ofNat number := by
  induction count with
  | zero => rw [shifts, Nat.pow, Nat.one_mul]
  | succ count ih =>
      have split : Nat.pow 2 (count + 1) * number = 2 * (Nat.pow 2 count * number) := by
        show Nat.pow 2 count * 2 * number = _
        rw [Nat.mul_comm (Nat.pow 2 count), Nat.mul_assoc]
      rw [split] at small ⊢
      rw [shifts, shift_double small, ih (by omega)]

theorem xor_eq_add {byte : Nat} (small : byte < 256) (high : Nat) :
    byte ^^^ (256 * high) = byte + 256 * high := by
  have low : (byte ^^^ (256 * high)) % 256 = byte := by
    have split := @Nat.xor_mod_two_pow byte (256 * high) 8
    simpa [Nat.mod_eq_of_lt small] using split
  have rest : (byte ^^^ (256 * high)) / 256 = high := by
    have split := @Nat.xor_div_two_pow byte (256 * high) 8
    simpa [Nat.div_eq_of_lt small] using split
  omega

theorem toUInt32_xor {byte : UInt8} {high : Nat} (small : 256 * high < 0x100000000) :
    byte.toUInt32 ^^^ UInt32.ofNat (256 * high) = UInt32.ofNat (byte.toNat + 256 * high) := by
  have bound := byte.toNat_lt
  have whole : (UInt32.ofNat (256 * high)).toNat = 256 * high := UInt32.toNat_ofNat_of_lt' small
  have both : (UInt32.ofNat (byte.toNat + 256 * high)).toNat = byte.toNat + 256 * high :=
    UInt32.toNat_ofNat_of_lt' (show _ < 0x100000000 by omega)
  rw [← UInt32.toNat_inj, UInt32.toNat_xor, UInt8.toNat_toUInt32, whole, both, xor_eq_add bound]

/-- Up to four bytes can be taken in at once, as one number. -/
theorem addBytes_eq_shifts (register : UInt32) {bytes : List UInt8} (few : bytes.length ≤ 4) :
    addBytes register bytes =
      shifts (8 * bytes.length) (register ^^^ UInt32.ofNat (LittleEndian.decode bytes)) := by
  induction bytes generalizing register with
  | nil => simp [addBytes, LittleEndian.decode, shifts]
  | cons byte rest ih =>
      rw [List.length_cons] at few
      have small : 256 * LittleEndian.decode rest < 0x100000000 := by
        have bound : LittleEndian.decode rest < Nat.pow 256 3 :=
          LittleEndian.decode_lt_of_length_le (by omega)
        have cube : Nat.pow 256 3 = 0x1000000 := rfl
        omega
      have later : shifts 8 (UInt32.ofNat (256 * LittleEndian.decode rest)) =
          UInt32.ofNat (LittleEndian.decode rest) := shifts_multiple 8 small
      calc addBytes register (byte :: rest)
        _ = addBytes (shifts 8 (register ^^^ byte.toUInt32)) rest := rfl
        _ = shifts (8 * rest.length) (shifts 8 (register ^^^ byte.toUInt32) ^^^
              UInt32.ofNat (LittleEndian.decode rest)) := ih _ (by omega)
        _ = shifts (8 * rest.length) (shifts 8 (register ^^^ byte.toUInt32 ^^^
              UInt32.ofNat (256 * LittleEndian.decode rest))) := by
          rw [shifts_xor 8 (register ^^^ byte.toUInt32), later]
        _ = shifts (8 * (rest.length + 1)) (register ^^^
              UInt32.ofNat (LittleEndian.decode (byte :: rest))) := by
          rw [shifts_shifts, UInt32.xor_assoc, toUInt32_xor small, LittleEndian.decode,
            Nat.mul_succ, Nat.add_comm]

theorem addBytes_injective {first second : UInt32} (bytes : List UInt8)
    (same : addBytes first bytes = addBytes second bytes) : first = second := by
  induction bytes generalizing first second with
  | nil => exact same
  | cons byte rest ih => exact (UInt32.xor_left_inj _).mp (shifts_injective 8 (ih same))

theorem eq_of_addBytes_eq {register : UInt32} {first second : List UInt8} (few : first.length ≤ 4)
    (length : first.length = second.length)
    (same : addBytes register first = addBytes register second) : first = second := by
  rw [addBytes_eq_shifts register few, addBytes_eq_shifts register (length ▸ few), length] at same
  have words := (UInt32.xor_right_inj register).mp (shifts_injective _ same)
  have firstSmall : LittleEndian.decode first < Nat.pow 256 4 :=
    LittleEndian.decode_lt_of_length_le few
  have secondSmall : LittleEndian.decode second < Nat.pow 256 4 :=
    LittleEndian.decode_lt_of_length_le (length ▸ few)
  have numbers : LittleEndian.decode first = LittleEndian.decode second := by
    rwa [← UInt32.toNat_inj, UInt32.toNat_ofNat_of_lt' firstSmall,
      UInt32.toNat_ofNat_of_lt' secondSmall] at words
  rw [← LittleEndian.encode_decode first, numbers, length, LittleEndian.encode_decode]

end Checksum

namespace Packet

open Checksum

theorem addBytes_withChecksum (body : List UInt8) :
    addBytes initial (withChecksum body) = shifts 32 0xFFFFFFFF := by
  have length := length_checksumBytes crc32 body
  have number : LittleEndian.decode (checksumBytes crc32 body) = (crc32 body).toNat := by
    rw [checksumBytes, LittleEndian.decode_encode]
    exact Nat.mod_eq_of_lt (crc32 body).toNat_lt
  rw [withChecksum, addBytes_append, addBytes_eq_shifts _ (Nat.le_of_eq length), length, number,
    UInt32.ofNat_toNat, crc32, finish, ← UInt32.xor_assoc, UInt32.xor_self, UInt32.zero_xor]

variable {packet : Packet} {bytes damaged : List UInt8} {start : Nat}

theorem split_around (start : Nat) (bytes : List UInt8) :
    bytes = bytes.take start ++ ((bytes.drop start).take 4 ++ (bytes.drop start).drop 4) := by
  rw [List.take_append_drop, List.take_append_drop]

theorem eq_of_addBytes_eq_of_burst (sameLength : damaged.length = bytes.length)
    (within : ∀ place, damaged[place]? ≠ bytes[place]? → start ≤ place ∧ place < start + 4)
    (same : addBytes initial damaged = addBytes initial bytes) : damaged = bytes := by
  have front : damaged.take start = bytes.take start := by
    apply List.ext_getElem?
    intro place
    by_cases early : place < start
    · rw [List.getElem?_take_of_lt early, List.getElem?_take_of_lt early]
      by_contra different
      exact absurd (within place different).1 (by omega)
    · rw [List.getElem?_take_eq_none (by omega), List.getElem?_take_eq_none (by omega)]
  have back : (damaged.drop start).drop 4 = (bytes.drop start).drop 4 := by
    apply List.ext_getElem?
    intro place
    simp only [List.getElem?_drop]
    by_contra different
    exact absurd (within _ different).2 (by omega)
  rw [split_around start damaged, split_around start bytes, front, back] at same ⊢
  simp only [addBytes_append] at same
  rw [eq_of_addBytes_eq (List.length_take_le ..) (by simp [sameLength]) (addBytes_injective _ same)]

theorem ofBytes_of_burst (wrote : packet.toBytes = .ok bytes)
    (sameLength : damaged.length = bytes.length) (different : damaged ≠ bytes)
    (within : ∀ place, damaged[place]? ≠ bytes[place]? → start ≤ place ∧ place < start + 4) :
    ofBytes damaged = .error .checksumMismatch := by
  obtain ⟨_, rfl⟩ := toBytes_eq_ok_iff.mp wrote
  have long : 8 ≤ damaged.length := by
    rw [sameLength, length_withChecksum, length_payload]
    omega
  refine ofBytes_of_not_withChecksum long ?_
  rintro body rfl
  exact different (eq_of_addBytes_eq_of_burst sameLength within
    ((addBytes_withChecksum body).trans (addBytes_withChecksum _).symm))

/-- The bytes of a packet, but for the last one before the checksum and the first three of it. -/
def smudged : List UInt8 :=
  (withChecksum (payload {})).take 25 ++ [1, 0, 0, 0] ++ (withChecksum (payload {})).drop 29

theorem ofBytes_of_burst_smudged :
    toBytes {} = .ok (withChecksum (payload {})) ∧
      smudged.length = (withChecksum (payload {})).length ∧ smudged ≠ withChecksum (payload {}) ∧
      (∀ place, smudged[place]? ≠ (withChecksum (payload {}))[place]? →
        25 ≤ place ∧ place < 25 + 4) ∧
      ofBytes smudged = .error .checksumMismatch := by
  have wrote : toBytes {} = .ok (withChecksum (payload {})) :=
    toBytes_eq_ok_iff.mpr ⟨by decide, rfl⟩
  have length : (withChecksum (payload {})).length = 30 := length_withChecksum _
  have sameLength : smudged.length = (withChecksum (payload {})).length := by decide +kernel
  have different : smudged ≠ withChecksum (payload {}) := by decide +kernel
  have inside : ∀ place < 30, smudged[place]? ≠ (withChecksum (payload {}))[place]? →
      25 ≤ place ∧ place < 25 + 4 := by decide +kernel
  have within : ∀ place, smudged[place]? ≠ (withChecksum (payload {}))[place]? →
      25 ≤ place ∧ place < 25 + 4 := by
    intro place differs
    by_cases early : place < 30
    · exact inside place early differs
    · rw [List.getElem?_eq_none (by omega), List.getElem?_eq_none (by omega)] at differs
      exact absurd rfl differs
  exact ⟨wrote, sameLength, different, within,
    ofBytes_of_burst wrote sameLength different within⟩

end Packet

end VideoSchedule

import Mathlib.Data.List.Basic
import VideoSchedule.Packet.Codec

/-!
Packets and their bytes. What a packet was written as is read back as that packet, and its fields
must fit their bytes for it to be written at all.
-/

namespace VideoSchedule.Packet

variable {α β : Type} {reader : Reader α} {bytes more : List UInt8} {value : α} {packet : Packet}

def Consumes (reader : Reader α) (bytes : List UInt8) (value : α) : Prop :=
  ∀ rest, reader (bytes ++ rest) = .ok (value, rest)

theorem consumes_pure (value : α) : Consumes (pure value) [] value := fun _ => rfl

theorem bind_run_ok {left : List UInt8} (ended : reader bytes = .ok (value, left))
    (next : α → Reader β) : (reader >>= next) bytes = next value left := by
  show (reader bytes >>= fun found => next found.1 found.2) = _
  rw [ended]
  rfl

theorem bind_run_error {cause : PacketError} (ended : reader bytes = .error cause)
    (next : α → Reader β) : (reader >>= next) bytes = .error cause := by
  show (reader bytes >>= fun found => next found.1 found.2) = _
  rw [ended]
  rfl

theorem Consumes.bind (consumes : Consumes reader bytes value) (next : α → Reader β) {last : β}
    (others : Consumes (next value) more last) :
    Consumes (reader >>= next) (bytes ++ more) last := by
  intro rest
  rw [List.append_assoc, bind_run_ok (consumes _)]
  exact others rest

theorem Consumes.follow (consumes : Consumes reader bytes value) (next : α → Reader β) {last : β}
    (quiet : Consumes (next value) [] last) : Consumes (reader >>= next) bytes last := by
  have both := consumes.bind next quiet
  rwa [List.append_nil] at both

theorem consumes_readByte (byte : UInt8) : Consumes readByte [byte] byte := fun _ => rfl

theorem consumes_readBytes (bytes : List UInt8) :
    Consumes (readBytes bytes.length) bytes bytes := by
  intro rest
  have enough : ¬(bytes ++ rest).length < bytes.length := by
    rw [List.length_append]
    omega
  simp only [readBytes, enough, if_false, List.take_left, List.drop_left]

theorem consumes_readOrder (order : UInt64) : Consumes readOrder (orderBytes order) order := by
  have word := consumes_readBytes (orderBytes order)
  rw [orderBytes, LittleEndian.length_encode] at word
  have small : order.toNat < Nat.pow 256 8 := order.toNat_lt
  have same : UInt64.ofNat (LittleEndian.decode (orderBytes order)) = order := by
    rw [orderBytes, LittleEndian.decode_encode, Nat.mod_eq_of_lt small, UInt64.ofNat_toNat]
  rw [← orderBytes] at word
  refine word.follow _ ?_
  rw [same]
  exact consumes_pure order

theorem consumes_readOrders (orders : List UInt64) :
    Consumes (readOrders orders.length) (orders.flatMap orderBytes) orders := by
  induction orders with
  | nil => exact consumes_pure []
  | cons order rest ih =>
      rw [List.flatMap_cons]
      exact (consumes_readOrder order).bind _ (ih.follow _ (consumes_pure _))

theorem consumes_readMagic : Consumes readMagic magic () :=
  (consumes_readBytes magic).follow _ (consumes_pure ())

theorem consumes_readType (type : PictureType) : Consumes readType [type.code] type := by
  refine (consumes_readByte type.code).follow _ ?_
  rw [PictureType.ofCode?_code]
  exact consumes_pure type

theorem toNat_count {count : Nat} (small : count ≤ 255) : (UInt8.ofNat count).toNat = count := by
  rw [UInt8.toNat_ofNat']
  omega

def layout (type : PictureType) (depth flag pastCount futureCount dpbCount : UInt8)
    (displayOrder encodeOrder : UInt64) (listed : List UInt64) : List UInt8 :=
  magic ++ [type.code, depth, flag, pastCount, futureCount, dpbCount] ++
    orderBytes displayOrder ++ orderBytes encodeOrder ++ listed.flatMap orderBytes

theorem consumes_layout (type : PictureType) (depth flag : UInt8)
    {pastCount futureCount dpbCount : UInt8} (displayOrder encodeOrder : UInt64)
    {past future dpb : List UInt64}
    (pastLength : past.length = pastCount.toNat) (futureLength : future.length = futureCount.toNat)
    (dpbLength : dpb.length = dpbCount.toNat) :
    Consumes readPayload
      (layout type depth flag pastCount futureCount dpbCount displayOrder encodeOrder
        (past ++ future ++ dpb))
      { displayOrder, encodeOrder, type, past, future, dpb
        depth := depth.toNat, isReference := flag != 0 } := by
  have split : layout type depth flag pastCount futureCount dpbCount displayOrder encodeOrder
      (past ++ future ++ dpb) = magic ++ ([type.code] ++ ([depth] ++ ([flag] ++ ([pastCount] ++
        ([futureCount] ++ ([dpbCount] ++ (orderBytes displayOrder ++ (orderBytes encodeOrder ++
          (past.flatMap orderBytes ++ (future.flatMap orderBytes ++
            dpb.flatMap orderBytes)))))))))) := by
    simp [layout, List.flatMap_append]
  rw [split]
  refine consumes_readMagic.bind _ ?_
  refine (consumes_readType _).bind _ ?_
  refine (consumes_readByte _).bind _ ?_
  refine (consumes_readByte _).bind _ ?_
  refine (consumes_readByte _).bind _ ?_
  refine (consumes_readByte _).bind _ ?_
  refine (consumes_readByte _).bind _ ?_
  refine (consumes_readOrder _).bind _ ?_
  refine (consumes_readOrder _).bind _ ?_
  rw [← pastLength, ← futureLength, ← dpbLength]
  refine (consumes_readOrders _).bind _ ?_
  refine (consumes_readOrders _).bind _ ?_
  exact (consumes_readOrders _).follow _ (consumes_pure _)

theorem consumes_payload (writable : packet.Writable) :
    Consumes readPayload packet.payload packet := by
  have flag : ((if packet.isReference then 1 else 0 : UInt8) != 0) = packet.isReference := by
    cases packet.isReference <;> rfl
  have read := consumes_layout packet.type (UInt8.ofNat packet.depth)
    (if packet.isReference then 1 else 0) packet.displayOrder packet.encodeOrder
    (toNat_count writable.past_le).symm (toNat_count writable.future_le).symm
    (toNat_count writable.dpb_le).symm
  rwa [flag, toNat_count writable.depth_le] at read

/-! Bytes with their checksum behind them. -/

section

variable {checksum : List UInt8 → UInt32} {body : List UInt8}

theorem length_checksumBytes (checksum : List UInt8 → UInt32) (body : List UInt8) :
    (checksumBytes checksum body).length = 4 := LittleEndian.length_encode ..

theorem read_append_checksumBytes (long : 4 ≤ body.length) :
    read checksum (body ++ checksumBytes checksum body) = (readPayload body).map Prod.fst := by
  have total : (body ++ checksumBytes checksum body).length = body.length + 4 := by
    rw [List.length_append, length_checksumBytes]
  have cut : (body ++ checksumBytes checksum body).length - 4 = body.length := by omega
  have enough : ¬(body ++ checksumBytes checksum body).length < 8 := by omega
  rw [read, if_neg enough, cut, List.take_left, List.drop_left, if_neg (not_not_intro rfl)]
  cases readPayload body <;> rfl

theorem write_eq_ok_iff : packet.write checksum = .ok bytes ↔
    packet.Writable ∧ bytes = packet.payload ++ checksumBytes checksum packet.payload := by
  unfold write
  by_cases writable : packet.Writable
  · simp [writable, eq_comm]
  · simp [writable]

theorem length_orderBytes (order : UInt64) : (orderBytes order).length = 8 :=
  LittleEndian.length_encode ..

theorem length_flatMap_orderBytes (orders : List UInt64) :
    (orders.flatMap orderBytes).length = 8 * orders.length := by
  simp [List.length_flatMap, length_orderBytes, Nat.mul_comm]

theorem length_payload (packet : Packet) : packet.payload.length =
    26 + 8 * (packet.past.length + packet.future.length + packet.dpb.length) := by
  simp only [payload, magic, List.length_append, length_flatMap_orderBytes, length_orderBytes,
    List.length_cons, List.length_nil]

theorem read_of_write (wrote : packet.write checksum = .ok bytes) :
    read checksum bytes = .ok packet := by
  obtain ⟨writable, rfl⟩ := write_eq_ok_iff.mp wrote
  have back := consumes_payload writable []
  rw [List.append_nil] at back
  rw [read_append_checksumBytes (by rw [length_payload]; omega), back]
  rfl

end

/-- Packets that can be written are read back, whatever the checksum is. That of `toBytes` and
`ofBytes` is CRC-32. -/
theorem write_round_trip (checksum : List UInt8 → UInt32) (packet : Packet) :
    ((∃ bytes, packet.write checksum = .ok bytes) ↔
      packet.depth ≤ 255 ∧ packet.past.length ≤ 255 ∧ packet.future.length ≤ 255 ∧
        packet.dpb.length ≤ 255) ∧
      ∀ bytes, packet.write checksum = .ok bytes →
        bytes.length =
            30 + 8 * (packet.past.length + packet.future.length + packet.dpb.length) ∧
          read checksum bytes = .ok packet := by
  constructor
  · simp only [write_eq_ok_iff, exists_and_left, exists_eq, and_true]
    constructor
    · rintro ⟨depth, past, future, dpb⟩
      exact ⟨depth, past, future, dpb⟩
    · rintro ⟨depth, past, future, dpb⟩
      exact ⟨depth, past, future, dpb⟩
  · intro bytes wrote
    refine ⟨?_, read_of_write wrote⟩
    obtain ⟨_, rfl⟩ := write_eq_ok_iff.mp wrote
    rw [List.length_append, length_checksumBytes, length_payload]
    omega

def listing : Packet where
  displayOrder := 3
  encodeOrder := 0xFFFFFFFFFFFFFFFF
  type := .bidirectional
  depth := 255
  past := [2, 0]
  future := [0x8000000000000000]
  dpb := [2, 4]

theorem write_round_trip_listing :
    ∃ bytes, listing.toBytes = .ok bytes ∧ bytes.length = 70 ∧ ofBytes bytes = .ok listing := by
  obtain ⟨bytes, wrote⟩ := (write_round_trip Checksum.crc32 listing).1.mpr (by decide)
  obtain ⟨length, back⟩ := (write_round_trip Checksum.crc32 listing).2 bytes wrote
  exact ⟨bytes, wrote, length, back⟩

/-! The checksum of packets. -/

def withChecksum (body : List UInt8) : List UInt8 := body ++ checksumBytes Checksum.crc32 body

theorem length_withChecksum (body : List UInt8) : (withChecksum body).length = body.length + 4 := by
  rw [withChecksum, List.length_append, length_checksumBytes]

theorem ofBytes_withChecksum {body : List UInt8} (long : 4 ≤ body.length) :
    ofBytes (withChecksum body) = (readPayload body).map Prod.fst :=
  read_append_checksumBytes long

theorem ofBytes_of_not_withChecksum (long : 8 ≤ bytes.length)
    (other : ∀ body, bytes ≠ withChecksum body) : ofBytes bytes = .error .checksumMismatch := by
  rw [ofBytes, read, if_neg (by omega), if_pos]
  intro same
  apply other (bytes.take (bytes.length - 4))
  rw [withChecksum, same, List.take_append_drop]

theorem toBytes_eq_ok_iff :
    packet.toBytes = .ok bytes ↔ packet.Writable ∧ bytes = withChecksum packet.payload :=
  write_eq_ok_iff

theorem ofBytes_of_toBytes (wrote : packet.toBytes = .ok bytes) : ofBytes bytes = .ok packet :=
  read_of_write wrote

end VideoSchedule.Packet

import VideoSchedule.Proofs.Codec

/-!
Which bytes are a packet, and what is wrong with those that are not. The reader goes through the
fields in their order and stops at the first that is missing or wrong, so every string of bytes has
one verdict.
-/

namespace VideoSchedule

theorem PictureType.ofCode?_eq_none {code : UInt8} (beyond : 3 < code) : ofCode? code = none := by
  have apart : ∀ small ≤ 3, code ≠ small := by
    rintro small below rfl
    exact absurd beyond (UInt8.not_lt.mpr below)
  simp [ofCode?, apart]

theorem PictureType.exists_code {code : UInt8} (within : ¬3 < code) :
    ∃ type : PictureType, code = type.code := by
  rw [UInt8.lt_iff_toNat_lt] at within
  have cases : code = 0 ∨ code = 1 ∨ code = 2 ∨ code = 3 := by
    simp only [← UInt8.toNat_inj]
    simp at within ⊢
    omega
  rcases cases with rfl | rfl | rfl | rfl
  · exact ⟨idr, rfl⟩
  · exact ⟨intra, rfl⟩
  · exact ⟨predicted, rfl⟩
  · exact ⟨bidirectional, rfl⟩

namespace Packet

variable {α β : Type} {reader : Reader α} {bytes : List UInt8} {count rest : Nat}

/-! Readers that run out of bytes. -/

def Needs (reader : Reader α) (count : Nat) : Prop :=
  ∀ bytes : List UInt8, bytes.length < count → reader bytes = .error .endsEarly

structure Takes (reader : Reader α) (count : Nat) : Prop where
  needs : Needs reader count
  enough : ∀ bytes : List UInt8, count ≤ bytes.length →
    ∃ value, reader bytes = .ok (value, bytes.drop count)

theorem needs_zero (reader : Reader α) : Needs reader 0 :=
  fun _ impossible => absurd impossible (Nat.not_lt_zero _)

theorem Takes.bind_needs (takes : Takes reader count) {next : α → Reader β}
    (needs : ∀ value, Needs (next value) rest) : Needs (reader >>= next) (count + rest) := by
  intro bytes short
  by_cases early : bytes.length < count
  · exact bind_run_error (takes.needs bytes early) next
  · obtain ⟨value, ended⟩ := takes.enough bytes (by omega)
    rw [bind_run_ok ended]
    exact needs value _ (by rw [List.length_drop]; omega)

theorem Takes.bind (takes : Takes reader count) {next : α → Reader β}
    (others : ∀ value, Takes (next value) rest) : Takes (reader >>= next) (count + rest) := by
  refine ⟨takes.bind_needs fun value => (others value).needs, fun bytes long => ?_⟩
  obtain ⟨value, ended⟩ := takes.enough bytes (by omega)
  obtain ⟨last, after⟩ := (others value).enough (bytes.drop count)
    (by rw [List.length_drop]; omega)
  refine ⟨last, ?_⟩
  rw [bind_run_ok ended, ← List.drop_drop]
  exact after

theorem takes_pure (value : α) : Takes (pure value) 0 :=
  ⟨needs_zero _, fun _ _ => ⟨value, rfl⟩⟩

theorem takes_readByte : Takes readByte 1 := by
  constructor
  · intro bytes short
    rw [List.length_eq_zero_iff.mp (Nat.lt_one_iff.mp short)]
    rfl
  · intro bytes long
    cases bytes with
    | nil => cases long
    | cons byte rest => exact ⟨byte, rfl⟩

theorem takes_readBytes (count : Nat) : Takes (readBytes count) count := by
  constructor
  · intro bytes short
    rw [readBytes, if_pos short]
  · intro bytes long
    exact ⟨bytes.take count, by rw [readBytes, if_neg (by omega)]⟩

theorem takes_readOrder : Takes readOrder 8 :=
  (takes_readBytes 8).bind fun _ => takes_pure _

theorem takes_readOrders (count : Nat) : Takes (readOrders count) (8 * count) := by
  induction count with
  | zero => exact takes_pure []
  | succ count ih =>
      have split : 8 * (count + 1) = 8 + (8 * count + 0) := by omega
      rw [split]
      exact takes_readOrder.bind fun _ => ih.bind fun _ => takes_pure _

/-! What the reader makes of the bytes before the checksum. -/

theorem readPayload_badMagic {found : List UInt8} (length : found.length = 4)
    (other : found ≠ magic) (rest : List UInt8) :
    readPayload (found ++ rest) = .error (.badMagic found) := by
  refine bind_run_error ?_ _
  have read := consumes_readBytes found
  rw [length] at read
  refine (bind_run_ok (read rest) _).trans ?_
  rw [if_pos other]
  rfl

theorem readPayload_noType : readPayload magic = .error .endsEarly :=
  (bind_run_ok (consumes_readMagic []) _).trans rfl

theorem readPayload_badType {code : UInt8} (beyond : 3 < code) (rest : List UInt8) :
    readPayload (magic ++ code :: rest) = .error (.badType code) := by
  refine (bind_run_ok (consumes_readMagic (code :: rest)) _).trans (bind_run_error ?_ _)
  refine (bind_run_ok (consumes_readByte code rest) _).trans ?_
  rw [PictureType.ofCode?_eq_none beyond]
  rfl

theorem readPayload_noHeader (type : PictureType) {rest : List UInt8} (short : rest.length < 5) :
    readPayload (magic ++ type.code :: rest) = .error .endsEarly := by
  refine (bind_run_ok (consumes_readMagic (type.code :: rest)) _).trans ?_
  refine (bind_run_ok (consumes_readType type rest) _).trans ?_
  refine (takes_readByte.bind_needs fun depth => takes_readByte.bind_needs fun flag =>
    takes_readByte.bind_needs fun pastCount => takes_readByte.bind_needs fun futureCount =>
      takes_readByte.bind_needs fun dpbCount => needs_zero _) rest ?_
  omega

theorem readPayload_noOrders (type : PictureType)
    (depth flag pastCount futureCount dpbCount : UInt8) {rest : List UInt8}
    (short : rest.length < 16 + 8 * (pastCount.toNat + futureCount.toNat + dpbCount.toNat)) :
    readPayload (magic ++ [type.code, depth, flag, pastCount, futureCount, dpbCount] ++ rest) =
      .error .endsEarly := by
  rw [List.append_assoc]
  refine (bind_run_ok (consumes_readMagic _) _).trans ?_
  refine (bind_run_ok (consumes_readType type _) _).trans ?_
  refine (bind_run_ok (consumes_readByte depth _) _).trans ?_
  refine (bind_run_ok (consumes_readByte flag _) _).trans ?_
  refine (bind_run_ok (consumes_readByte pastCount _) _).trans ?_
  refine (bind_run_ok (consumes_readByte futureCount _) _).trans ?_
  refine (bind_run_ok (consumes_readByte dpbCount _) _).trans ?_
  refine (takes_readOrder.bind_needs fun displayOrder => takes_readOrder.bind_needs
    fun encodeOrder => (takes_readOrders _).bind_needs fun past =>
      (takes_readOrders _).bind_needs fun future => (takes_readOrders _).bind_needs
        fun dpb => needs_zero _) rest ?_
  omega

/-! Enough bytes are always some orders. -/

theorem exists_order (word : List UInt8) (length : word.length = 8) :
    ∃ order, word = orderBytes order := by
  have small := LittleEndian.decode_lt word
  rw [length] at small
  refine ⟨UInt64.ofNat (LittleEndian.decode word), ?_⟩
  rw [orderBytes, UInt64.toNat_ofNat_of_lt' small, ← length, LittleEndian.encode_decode]

theorem exists_orders (count : Nat) (bytes : List UInt8) (long : 8 * count ≤ bytes.length) :
    ∃ (orders : List UInt64) (extra : List UInt8),
      orders.length = count ∧ bytes = orders.flatMap orderBytes ++ extra := by
  induction count generalizing bytes with
  | zero => exact ⟨[], bytes, rfl, rfl⟩
  | succ count ih =>
      obtain ⟨order, first⟩ := exists_order (bytes.take 8) (by
        rw [List.length_take]
        omega)
      obtain ⟨orders, extra, length, others⟩ := ih (bytes.drop 8) (by
        rw [List.length_drop]
        omega)
      refine ⟨order :: orders, extra, by rw [List.length_cons, length], ?_⟩
      rw [List.flatMap_cons, List.append_assoc, ← first, ← others, List.take_append_drop]

inductive Verdict : List UInt8 → Except PacketError Packet → Prop where
  | tooShort {bytes : List UInt8} (short : bytes.length < 8) :
      Verdict bytes (.error (.tooShort bytes.length))
  | checksumMismatch {bytes : List UInt8} (long : 8 ≤ bytes.length)
      (other : ∀ body, bytes ≠ withChecksum body) : Verdict bytes (.error .checksumMismatch)
  | badMagic {found rest : List UInt8} (length : found.length = 4) (other : found ≠ magic) :
      Verdict (withChecksum (found ++ rest)) (.error (.badMagic found))
  | noType : Verdict (withChecksum magic) (.error .endsEarly)
  | badType {code : UInt8} {rest : List UInt8} (beyond : 3 < code) :
      Verdict (withChecksum (magic ++ code :: rest)) (.error (.badType code))
  /-- The bytes end before the last count. -/
  | noHeader {type : PictureType} {rest : List UInt8} (short : rest.length < 5) :
      Verdict (withChecksum (magic ++ type.code :: rest)) (.error .endsEarly)
  /-- The bytes end before the last order. -/
  | noOrders {type : PictureType} {depth flag pastCount futureCount dpbCount : UInt8}
      {rest : List UInt8}
      (short : rest.length < 16 + 8 * (pastCount.toNat + futureCount.toNat + dpbCount.toNat)) :
      Verdict
        (withChecksum
          (magic ++ [type.code, depth, flag, pastCount, futureCount, dpbCount] ++ rest))
        (.error .endsEarly)
  | packet {type : PictureType} {depth flag pastCount futureCount dpbCount : UInt8}
      {displayOrder encodeOrder : UInt64} {past future dpb : List UInt64} {extra : List UInt8}
      (pastLength : past.length = pastCount.toNat)
      (futureLength : future.length = futureCount.toNat)
      (dpbLength : dpb.length = dpbCount.toNat) :
      Verdict
        (withChecksum
          (magic ++ [type.code, depth, flag, pastCount, futureCount, dpbCount] ++
            orderBytes displayOrder ++ orderBytes encodeOrder ++
            (past ++ future ++ dpb).flatMap orderBytes ++ extra))
        (.ok { displayOrder, encodeOrder, type, past, future, dpb
               depth := depth.toNat, isReference := flag != 0 })

theorem Verdict.eq_ofBytes {result : Except PacketError Packet} (verdict : Verdict bytes result) :
    ofBytes bytes = result := by
  have reads : ∀ {body : List UInt8}, 4 ≤ body.length → ∀ {ended}, readPayload body = ended →
      ofBytes (withChecksum body) = ended.map Prod.fst := by
    rintro body long ended rfl
    exact ofBytes_withChecksum long
  cases verdict with
  | tooShort short => rw [ofBytes, read, if_pos short]
  | checksumMismatch long other => exact ofBytes_of_not_withChecksum long other
  | badMagic length other =>
      exact reads (by simp [length]) (readPayload_badMagic length other _)
  | noType => exact reads (by decide) readPayload_noType
  | badType beyond => exact reads (by simp [magic]) (readPayload_badType beyond _)
  | noHeader short => exact reads (by simp [magic]) (readPayload_noHeader _ short)
  | noOrders short =>
      exact reads (by simp [magic]) (readPayload_noOrders _ _ _ _ _ _ short)
  | packet pastLength futureLength dpbLength =>
      refine reads ?_ (consumes_layout _ _ _ _ _ pastLength futureLength dpbLength _)
      simp [layout, magic]

theorem exists_verdict_fields (type : PictureType)
    (depth flag pastCount futureCount dpbCount : UInt8) (rest : List UInt8) :
    ∃ result, Verdict
      (withChecksum (magic ++ [type.code, depth, flag, pastCount, futureCount, dpbCount] ++ rest))
      result := by
  by_cases short : rest.length < 16 + 8 * (pastCount.toNat + futureCount.toNat + dpbCount.toNat)
  · exact ⟨_, .noOrders short⟩
  · -- The two orders of the packet itself, and the lists, one after the other.
    obtain ⟨own, rest, two, rfl⟩ := exists_orders 2 rest (by omega)
    obtain ⟨displayOrder, encodeOrder, rfl⟩ := List.length_eq_two.mp two
    simp only [List.length_append, length_flatMap_orderBytes, two] at short
    obtain ⟨past, rest, pastLength, rfl⟩ := exists_orders pastCount.toNat rest (by omega)
    simp only [List.length_append, length_flatMap_orderBytes, pastLength] at short
    obtain ⟨future, rest, futureLength, rfl⟩ := exists_orders futureCount.toNat rest (by omega)
    simp only [List.length_append, length_flatMap_orderBytes, futureLength] at short
    obtain ⟨dpb, extra, dpbLength, rfl⟩ := exists_orders dpbCount.toNat rest (by omega)
    have verdict := @Verdict.packet type depth flag pastCount futureCount dpbCount displayOrder
      encodeOrder past future dpb extra pastLength futureLength dpbLength
    exact ⟨_, by simpa using verdict⟩

theorem exists_verdict (bytes : List UInt8) : ∃ result, Verdict bytes result := by
  by_cases short : bytes.length < 8
  · exact ⟨_, .tooShort short⟩
  by_cases other : ∀ body, bytes ≠ withChecksum body
  · exact ⟨_, .checksumMismatch (by omega) other⟩
  simp only [ne_eq, not_forall, not_not] at other
  obtain ⟨body, rfl⟩ := other
  rw [length_withChecksum] at short
  obtain ⟨found, rest, length, rfl⟩ : ∃ found rest, found.length = 4 ∧ body = found ++ rest :=
    ⟨body.take 4, body.drop 4, by rw [List.length_take]; omega, (List.take_append_drop 4 body).symm⟩
  by_cases wrong : found ≠ magic
  · exact ⟨_, .badMagic length wrong⟩
  obtain rfl := not_not.mp wrong
  cases rest with
  | nil =>
      rw [List.append_nil]
      exact ⟨_, .noType⟩
  | cons code rest =>
      by_cases beyond : 3 < code
      · exact ⟨_, .badType beyond⟩
      obtain ⟨type, rfl⟩ := PictureType.exists_code beyond
      match rest with
      | depth :: flag :: pastCount :: futureCount :: dpbCount :: rest =>
          exact exists_verdict_fields type depth flag pastCount futureCount dpbCount rest
      | [] | [_] | [_, _] | [_, _, _] | [_, _, _, _] => exact ⟨_, .noHeader (by simp)⟩

theorem ofBytes_eq_iff (bytes : List UInt8) (result : Except PacketError Packet) :
    ofBytes bytes = result ↔ Verdict bytes result := by
  constructor
  · rintro rfl
    obtain ⟨result, verdict⟩ := exists_verdict bytes
    rwa [verdict.eq_ofBytes]
  · exact Verdict.eq_ofBytes

end Packet

end VideoSchedule

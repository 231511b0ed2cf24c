import EdgeSentinel.Library.Crc
import EdgeSentinel.Protocols.UartStream

/-! The checksum loop is the sixteen-bit register of the polynomial 0x1021, and with it the
decoder refuses every frame that was hit by an error which that polynomial does not divide. -/
namespace EdgeSentinel

open Polynomial BitPolynomial

def crcTaps : BitVec 16 := 0x1021#16

/- The register is the lowest sixteen bits of the loop's 32. -/
def register (crc : UInt32) : BitVec 16 := crc.toBitVec.setWidth 16

theorem register_top (crc : UInt32) : (register crc).msb = crc.toBitVec.getLsbD 15 := by
  rw [register, BitVec.msb_setWidth]
  rfl

theorem top_test (crc : UInt32) : crc &&& 0x8000 ≠ 0 ↔ crc.toBitVec.getLsbD 15 = true := by
  have mask : (crc &&& 0x8000).toBitVec = crc.toBitVec &&& BitVec.twoPow 32 15 := rfl
  rw [ne_eq, ← UInt32.toBitVec_inj, mask, BitVec.and_twoPow]
  cases crc.toBitVec.getLsbD 15 <;> decide

/-- One round of the loop, mask and conditional exclusive or included. -/
theorem crcBit_register (crc : UInt32) :
    register (crcBit crc) = Crc.shift crcTaps (register crc) := by
  have mask : ∀ c : UInt32, register (c &&& 0xFFFF) = register c := by
    intro c
    have all : (0xFFFF : UInt32).toBitVec.setWidth 16 = BitVec.allOnes 16 := rfl
    rw [register, UInt32.toBitVec_and, BitVec.setWidth_and, all, BitVec.and_allOnes]
    rfl
  have left : register (crc <<< 1) = register crc <<< 1 := by
    have shifted : (crc <<< 1).toBitVec = crc.toBitVec <<< 1 := rfl
    rw [register, shifted, BitVec.setWidth_shiftLeft_of_le (by decide)]
    rfl
  rw [crcBit, mask, Crc.shift, register_top]
  by_cases set : crc.toBitVec.getLsbD 15 = true
  · rw [if_pos ((top_test crc).mpr set), if_pos set, register, UInt32.toBitVec_xor,
      BitVec.setWidth_xor, ← register, left]
    rfl
  · rw [if_neg (mt (top_test crc).mp set), if_neg set, left]

theorem crcBits_register (n : Nat) (crc : UInt32) :
    register (crcBit^[n] crc) = (Crc.shift crcTaps)^[n] (register crc) := by
  induction n with
  | zero => rfl
  | succ n ih =>
    rw [Function.iterate_succ_apply', Function.iterate_succ_apply', crcBit_register, ih]

theorem crcByte_register (crc : UInt32) (byte : UInt8) :
    register (crcByte crc byte) = Crc.feedByte crcTaps (register crc) byte.toBitVec := by
  have shifted : (byte.toUInt32 <<< 8).toBitVec = byte.toBitVec.setWidth 32 <<< 8 := rfl
  have placed : (byte.toBitVec.setWidth 32 <<< 8).setWidth 16 =
      byte.toBitVec.setWidth 16 <<< 8 := by
    rw [BitVec.setWidth_shiftLeft_of_le (by decide), BitVec.setWidth_setWidth_of_le _ (by decide)]
  rw [crcByte, crcBits_register, Crc.feedByte, register, UInt32.toBitVec_xor,
    BitVec.setWidth_xor, shifted, placed]
  rfl

/-- The checksum is what the register holds after all bytes. -/
theorem crc16Ccitt_register (bytes : List UInt8) :
    (crc16Ccitt bytes).toBitVec =
      (bytes.map UInt8.toBitVec).foldl (Crc.feedByte crcTaps) 0xFFFF#16 := by
  have fold : ∀ crc : UInt32, register (bytes.foldl crcByte crc) =
      (bytes.map UInt8.toBitVec).foldl (Crc.feedByte crcTaps) (register crc) := by
    induction bytes with
    | nil => exact fun crc => rfl
    | cons byte rest ih =>
      intro crc
      rw [List.foldl_cons, ih, crcByte_register]
      rfl
  exact fold 0xFFFF

theorem word16_register (a b : UInt8) :
    (BigEndian.word16 a b).toBitVec = a.toBitVec ++ b.toBitVec := by
  have hb := b.toNat_lt
  apply BitVec.eq_of_toNat_eq
  rw [UInt16.toNat_toBitVec, BigEndian.word16_toNat, BitVec.toNat_append, Nat.shiftLeft_eq,
    UInt8.toNat_toBitVec, UInt8.toNat_toBitVec, BigEndian.or_eq_add 8 hb]
  rfl

theorem word16_xor (a b x y : UInt8) :
    (BigEndian.word16 (a ^^^ x) (b ^^^ y)).toBitVec =
      (BigEndian.word16 a b).toBitVec ^^^ (BigEndian.word16 x y).toBitVec := by
  rw [word16_register, word16_register, word16_register]
  exact BitVec.xor_append.symm

/-- A big-endian word continues the message as its two bytes do. -/
theorem message_word16 (bytes : List (BitVec 8)) (a b : UInt8) :
    message bytes * X ^ 16 + toPoly (BigEndian.word16 a b).toBitVec =
      message (bytes ++ [a.toBitVec, b.toBitVec]) := by
  have pair : message [a.toBitVec, b.toBitVec] = X ^ 8 * toPoly a.toBitVec + toPoly b.toBitVec := by
    rw [message_cons, message_cons, message_nil, add_zero, List.length_singleton, List.length_nil]
    ring
  rw [word16_register, toPoly_append, message_append, pair]
  rfl

theorem message_bytes16 (word : UInt16) :
    message ((BigEndian.bytes16 word).map UInt8.toBitVec) = toPoly word.toBitVec := by
  obtain ⟨high, low, bytes⟩ : ∃ high low, BigEndian.bytes16 word = [high, low] := ⟨_, _, rfl⟩
  have joined := message_word16 [] high low
  rw [BigEndian.word16_bytes16 bytes, message_nil, zero_mul, zero_add] at joined
  rw [bytes]
  exact joined.symm

theorem crc16Ccitt_append (bytes more : List UInt8) :
    (crc16Ccitt (bytes ++ more)).toBitVec =
      (more.map UInt8.toBitVec).foldl (Crc.feedByte crcTaps) (crc16Ccitt bytes).toBitVec := by
  rw [crc16Ccitt_register, crc16Ccitt_register, List.map_append, List.foldl_append]

theorem generator_crcTaps : Crc.generator crcTaps = X ^ 16 + X ^ 12 + X ^ 5 + 1 := by
  have low : toPoly crcTaps = X ^ 12 + X ^ 5 + 1 := by
    simp [toPoly, Finset.sum_range_succ, crcTaps, digit]
    ring
  rw [Crc.generator, low]
  ring

/-- The loop divides: what it returns is the remainder of the message, with sixteen zeros
behind it and the ones of the start in front of it, and a message that carries its own
remainder leaves none. -/
theorem crc_is_remainder (m : List UInt8) :
    toPoly (crc16Ccitt m).toBitVec =
      (message (m.map UInt8.toBitVec) * X ^ 16 + toPoly 0xFFFF#16 * X ^ (8 * m.length)) %ₘ
        (X ^ 16 + X ^ 12 + X ^ 5 + 1) ∧
    crc16Ccitt (m ++ BigEndian.bytes16 (crc16Ccitt m)) = 0 := by
  constructor
  · have remainder := Crc.toPoly_message crcTaps (by decide) 0xFFFF#16 (m.map UInt8.toBitVec)
    rw [generator_crcTaps, List.length_map] at remainder
    rw [crc16Ccitt_register]
    exact remainder
  · apply UInt16.toBitVec_inj.mp
    rw [crc16Ccitt_append]
    exact Crc.feed_itself crcTaps (by decide) rfl (message_bytes16 _)

/- The generator x^16 + x^12 + x^5 + 1 has an even number of terms. -/
theorem generator_eval_one : (Crc.generator crcTaps).eval 1 = 0 := by
  simp only [Crc.generator, toPoly, eval_add, eval_pow, eval_X, eval_finsetSum, eval_mul, eval_C,
    one_pow, mul_one]
  decide

theorem register_round : ∀ k < 80, 0 < k → (Crc.shift crcTaps)^[k] 1#16 ≠ 1#16 := by
  decide +kernel

namespace UartFrameDecoder

/- Bytes in the order in which their bits are sent. -/
def wireBits (bytes : List UInt8) : List Bool := bytesBits (bytes.map UInt8.toBitVec)

/-- An error that leaves the two magic bytes alone. -/
def corrupt (bytes errors : List UInt8) : List UInt8 :=
  bytes.take 2 ++ List.zipWith (· ^^^ ·) (bytes.drop 2) errors

/-- The errors that a checksum of sixteen bits is chosen for. -/
def Detectable (bits : List Bool) : Prop :=
  Odd (bits.count true) ∨ bits.count true = 2 ∨
    ∃ first, ∀ i, bits[i]? = some true → first ≤ i ∧ i < first + 16

theorem zero_of_clear {bytes : List UInt8} (clear : true ∉ wireBits bytes) :
    ∀ byte ∈ bytes, byte = 0 := by
  intro byte member
  have quiet : true ∉ byteBits byte.toBitVec := by
    intro set
    apply clear
    rw [wireBits, bytesBits, List.mem_flatMap]
    exact ⟨byte.toBitVec, List.mem_map_of_mem member, set⟩
  apply UInt8.toBitVec_inj.mp
  apply toPoly_injective
  rw [← ofBits_byte, ← ofBits_byte, ofBits_of_clear quiet]
  exact (ofBits_of_clear (by decide)).symm

/-- No detectable error is a multiple of the generator. -/
theorem Detectable.clear_of_dvd {errors : List UInt8} (short : errors.length ≤ 10)
    (kind : Detectable (wireBits errors))
    (divides : Crc.generator crcTaps ∣ ofBits (wireBits errors)) : true ∉ wireBits errors := by
  have low : crcTaps.getLsbD 0 = true := by decide
  rcases kind with odd | pair | ⟨first, burst⟩
  · have even := Crc.even_of_dvd generator_eval_one divides
    exact absurd odd (Nat.not_odd_iff_even.mpr even)
  · obtain ⟨k, positive, bound, round⟩ := Crc.round_of_dvd_pair (by decide) low pair divides
    rw [wireBits, bytesBits_length, List.length_map] at bound
    exact absurd round (register_round k (by omega) positive)
  · exact Crc.clear_of_dvd_burst (by decide) low burst divides

theorem ofBits_wireBits_zero (bytes : List UInt8) :
    ofBits (wireBits (0 :: bytes)) = ofBits (wireBits bytes) := by
  have front := message_cons 0#8 (bytes.map UInt8.toBitVec)
  rw [toPoly_zero, zero_mul, zero_add] at front
  exact front

/-- An error on a message and its checksum that goes unnoticed is a multiple of the generator. -/
theorem dvd_of_crc {sent errors : List UInt8} (same : sent.length = errors.length)
    {a b x y : UInt8} (valid : BigEndian.word16 a b = crc16Ccitt sent)
    (missed : BigEndian.word16 (a ^^^ x) (b ^^^ y) =
      crc16Ccitt (List.zipWith (· ^^^ ·) sent errors)) :
    Crc.generator crcTaps ∣ ofBits (wireBits (errors ++ [x, y])) := by
  have before : (sent.map UInt8.toBitVec).foldl (Crc.feedByte crcTaps) 0xFFFF#16 =
      (BigEndian.word16 a b).toBitVec := by
    rw [← crc16Ccitt_register, valid]
  have hit : (List.zipWith (· ^^^ ·) sent errors).map UInt8.toBitVec =
      List.zipWith (· ^^^ ·) (sent.map UInt8.toBitVec) (errors.map UInt8.toBitVec) := by
    rw [List.map_zipWith, List.zipWith_map]
    rfl
  have after : (List.zipWith (· ^^^ ·) (sent.map UInt8.toBitVec)
      (errors.map UInt8.toBitVec)).foldl (Crc.feedByte crcTaps) 0xFFFF#16 =
      (BigEndian.word16 a b).toBitVec ^^^ (BigEndian.word16 x y).toBitVec := by
    rw [← hit, ← crc16Ccitt_register, ← missed, word16_xor]
  have lengths : (sent.map UInt8.toBitVec).length = (errors.map UInt8.toBitVec).length := by
    rw [List.length_map, List.length_map, same]
  have divides := Crc.dvd_of_missed crcTaps (by decide) lengths before after
  rw [message_word16] at divides
  rw [wireBits, List.map_append]
  exact divides

theorem crc_of_judge {bytes : List UInt8} (passed : judge bytes ≠ .error .crc) :
    BigEndian.word16 (bytes.getD 10 0) (bytes.getD 11 0) = crc16Ccitt (bytes.take 10) := by
  by_contra other
  exact passed (if_pos other)

/-- The window as the checksum sees it: ten covered bytes, of which the error leaves the
magic ones alone, and the two bytes of the checksum. -/
theorem corrupt_parts {bytes errors : List UInt8} (whole : bytes.length = 12)
    (length : errors.length = 10) :
    (corrupt bytes errors).take 10 =
      List.zipWith (· ^^^ ·) (bytes.take 10) (0 :: 0 :: errors.take 8) ∧
    (corrupt bytes errors).getD 10 0 = bytes.getD 10 0 ^^^ errors.getD 8 0 ∧
    (corrupt bytes errors).getD 11 0 = bytes.getD 11 0 ^^^ errors.getD 9 0 ∧
    errors.take 8 ++ [errors.getD 8 0, errors.getD 9 0] = errors := by
  match bytes, whole with
  | [b0, b1, b2, b3, b4, b5, b6, b7, b8, b9, b10, b11], _ =>
    match errors, length with
    | [e2, e3, e4, e5, e6, e7, e8, e9, e10, e11], _ => simp [corrupt]

theorem dvd_of_judge {bytes errors : List UInt8} (whole : bytes.length = 12)
    (length : errors.length = 10) (passed : judge bytes ≠ .error .crc)
    (missed : judge (corrupt bytes errors) ≠ .error .crc) :
    Crc.generator crcTaps ∣ ofBits (wireBits errors) := by
  obtain ⟨covered, high, low, joined⟩ := corrupt_parts whole length
  have agree := crc_of_judge missed
  rw [covered, high, low] at agree
  have same : (bytes.take 10).length = (0 :: 0 :: errors.take 8).length := by
    simp [whole, length]
  have divides := dvd_of_crc same (crc_of_judge passed) agree
  rw [List.cons_append, List.cons_append, joined, ofBits_wireBits_zero,
    ofBits_wireBits_zero] at divides
  exact divides

theorem judge_corrupt (frame : UartFrame) {errors : List UInt8} (length : errors.length = 10)
    (nonzero : errors ≠ List.replicate 10 0) (kind : Detectable (wireBits errors)) :
    judge (corrupt (encodeUartFrame frame) errors) = .error .crc := by
  by_contra missed
  have passed : judge (encodeUartFrame frame) ≠ .error .crc := by
    rw [judge_encode]
    exact fun same => nomatch same
  have divides := dvd_of_judge (encodeUartFrame_length frame) length passed missed
  have clear := kind.clear_of_dvd length.le divides
  exact nonzero (List.eq_replicate_iff.mpr ⟨length, zero_of_clear clear⟩)

/-- Every frame, every detectable error behind its magic: the decoder returns nothing,
counts one checksum error and is ready for the next frame. -/
theorem corruption_detected (frame : UartFrame) (d : UartFrameDecoder) (start : d.position = 0)
    (errors : List UInt8) (length : errors.length = 10) (nonzero : errors ≠ List.replicate 10 0)
    (kind : Detectable (wireBits errors)) :
    let bytes := corrupt (encodeUartFrame frame) errors
    Mealy.outputs feed d bytes = List.replicate 12 none ∧
    (Mealy.final feed d bytes).crcErrors = SizeT.increment d.crcErrors ∧
    (Mealy.final feed d bytes).formatErrors = d.formatErrors ∧
    (Mealy.final feed d bytes).position = 0 := by
  intro bytes
  have verdict : judge bytes = .error .crc := judge_corrupt frame length nonzero kind
  let body := List.zipWith (· ^^^ ·) ((encodeUartFrame frame).drop 2) errors
  have split : bytes = [kUartMagicFirst, kUartMagicSecond] ++ body := rfl
  have size : body.length = 10 := by
    simp [body, length]
  obtain ⟨answers, counted, empty⟩ := feed_window (sane_start start) (by omega) split size
  rw [verdict] at answers counted
  refine ⟨answers, ?_, ?_, empty⟩
  · exact congrArg Prod.fst counted
  · exact congrArg Prod.snd counted

theorem corruption_detected_single :
    let bytes := corrupt (encodeUartFrame {}) [1, 0, 0, 0, 0, 0, 0, 0, 0, 0]
    Mealy.outputs feed {} bytes = List.replicate 12 none ∧
    (Mealy.final feed {} bytes).crcErrors = 1 ∧
    (Mealy.final feed {} bytes).formatErrors = 0 ∧
    (Mealy.final feed {} bytes).position = 0 :=
  corruption_detected {} {} rfl [1, 0, 0, 0, 0, 0, 0, 0, 0, 0] rfl (by decide) (.inl (by decide))

end UartFrameDecoder

end EdgeSentinel

import EdgeSentinel.Library.Mealy
import EdgeSentinel.Library.SizeT
import EdgeSentinel.Protocols.UartFrame

/-! The incremental decoder. Its buffer keeps stale bytes behind `position`, so
the proofs follow the pending bytes, the ones in front of it: they are always
the last bytes fed and always agree with the frame header. -/
namespace EdgeSentinel

inductive DecodeError where
  | crc
  | format
  deriving DecidableEq, Repr

structure UartFrameDecoder where
  buffer : Vector UInt8 12 := Vector.replicate 12 0
  position : Nat := 0
  crcErrors : Nat := 0
  formatErrors : Nat := 0
  deriving DecidableEq, Repr

namespace UartFrameDecoder

/-- The checks on the twelve bytes of a complete buffer, in the order of the source. -/
def judge (bytes : List UInt8) : Except DecodeError UartFrame :=
  let expectedCrc := BigEndian.word16 (bytes.getD 10 0) (bytes.getD 11 0)
  let actualCrc := crc16Ccitt (bytes.take 10)
  if expectedCrc ≠ actualCrc then .error .crc
  else if bytes.getD 2 0 ≠ kUartProtocolVersion then .error .format
  else
    match MeasurementKind.ofCode (bytes.getD 3 0) with
    | none => .error .format
    | some kind =>
      .ok {
        kind
        sequence := BigEndian.word16 (bytes.getD 4 0) (bytes.getD 5 0)
        milliValue :=
          (BigEndian.word32 (bytes.getD 6 0) (bytes.getD 7 0) (bytes.getD 8 0)
            (bytes.getD 9 0)).toInt32 }

/- `buffer_[position_++] = byte`. -/
def store (d : UartFrameDecoder) (byte : UInt8) : UartFrameDecoder :=
  { d with buffer := d.buffer.setIfInBounds d.position byte, position := d.position + 1 }

def complete (d : UartFrameDecoder) : UartFrameDecoder × Option UartFrame :=
  match judge d.buffer.toList with
  | .error .crc => ({ d with position := 0, crcErrors := SizeT.increment d.crcErrors }, none)
  | .error .format =>
    ({ d with position := 0, formatErrors := SizeT.increment d.formatErrors }, none)
  | .ok frame => ({ d with position := 0 }, some frame)

def feed (d : UartFrameDecoder) (byte : UInt8) : UartFrameDecoder × Option UartFrame :=
  if d.position = 0 then
    (if byte = kUartMagicFirst then d.store byte else d, none)
  else if d.position = 1 then
    (if byte = kUartMagicSecond then d.store byte
      else if byte ≠ kUartMagicFirst then { d with position := 0 }
      else d, none)
  else
    let d := d.store byte
    if d.position < kUartFrameSize then (d, none) else d.complete

/-- A frame survives its own encoding. -/
theorem judge_encode (frame : UartFrame) : judge (encodeUartFrame frame) = .ok frame := by
  have covered : (encodeUartFrame frame).take 10 = encodeCovered frame := rfl
  have crc : BigEndian.word16 ((encodeUartFrame frame).getD 10 0)
      ((encodeUartFrame frame).getD 11 0) = crc16Ccitt (encodeCovered frame) :=
    BigEndian.word16_bytes16 rfl
  have sequence : BigEndian.word16 ((encodeUartFrame frame).getD 4 0)
      ((encodeUartFrame frame).getD 5 0) = frame.sequence :=
    BigEndian.word16_bytes16 rfl
  have value : BigEndian.word32 ((encodeUartFrame frame).getD 6 0)
      ((encodeUartFrame frame).getD 7 0) ((encodeUartFrame frame).getD 8 0)
      ((encodeUartFrame frame).getD 9 0) = frame.milliValue.toUInt32 :=
    BigEndian.word32_bytes32 rfl
  have version : (encodeUartFrame frame).getD 2 0 = kUartProtocolVersion := rfl
  have kind : (encodeUartFrame frame).getD 3 0 = frame.kind.code := rfl
  simp only [judge, covered, crc, sequence, value, version, kind, MeasurementKind.ofCode_code,
    ne_eq, not_true_eq_false, if_false]
  rfl

/-- An accepted buffer that starts with the magic is the encoding of its frame:
the decoder accepts nothing that the encoder does not produce. -/
theorem encode_judge {bytes : List UInt8} {frame : UartFrame} (length : bytes.length = 12)
    (header : bytes.take 2 = [kUartMagicFirst, kUartMagicSecond])
    (accepted : judge bytes = .ok frame) : encodeUartFrame frame = bytes := by
  match bytes, length with
  | [b0, b1, b2, b3, b4, b5, b6, b7, b8, b9, b10, b11], _ =>
    simp only [List.take_succ_cons, List.take_zero, List.cons.injEq, and_true] at header
    obtain ⟨first, second⟩ := header
    simp only [judge, List.getD_cons_succ, List.getD_cons_zero] at accepted
    split at accepted
    · contradiction
    · rename_i crc
      split at accepted
      · contradiction
      · rename_i version
        split at accepted
        · contradiction
        · rename_i kind known
          have same := Except.ok.inj accepted
          subst same
          have covered : encodeCovered
              { kind := kind, sequence := BigEndian.word16 b4 b5,
                milliValue := (BigEndian.word32 b6 b7 b8 b9).toInt32 } =
              [b0, b1, b2, b3, b4, b5, b6, b7, b8, b9] := by
            simp only [ne_eq, Decidable.not_not] at version
            simp only [encodeCovered, BigEndian.bytes16_word16, UInt32.toUInt32_toInt32,
              BigEndian.bytes32_word32, MeasurementKind.code_ofCode known, first, second, version]
            rfl
          simp only [ne_eq, Decidable.not_not, List.take_succ_cons, List.take_zero] at crc
          rw [encodeUartFrame, covered, ← crc, BigEndian.bytes16_word16]
          rfl

/-- The bytes of the frame being collected. -/
def pending (d : UartFrameDecoder) : List UInt8 := d.buffer.toList.take d.position

/- Both error counters, for statements that they stay as they are. -/
def errors (d : UartFrameDecoder) : Nat × Nat := (d.crcErrors, d.formatErrors)

structure Sane (d : UartFrameDecoder) : Prop where
  inside : d.position < 12
  header : d.pending.take 2 <+: [kUartMagicFirst, kUartMagicSecond]

section Step

variable {d : UartFrameDecoder}

theorem pending_length (inside : d.position ≤ 12) : d.pending.length = d.position := by
  simp [pending, inside]

theorem sane_start (start : d.position = 0) : Sane d :=
  ⟨by omega, by simp [pending, start]⟩

theorem pending_start (start : d.position = 0) : d.pending = [] := by
  simp [pending, start]

theorem store_pending (inside : d.position < 12) (byte : UInt8) :
    (d.store byte).pending = d.pending ++ [byte] := by
  simp [pending, store, List.take_add_one, List.take_set_of_le, inside]

/-- Hunting for the header: nothing pending, or a first magic byte. -/
theorem Sane.hunting_cases (h : Sane d) (hunting : d.position ≤ 1) :
    d.position = 0 ∧ d.pending = [] ∨ d.position = 1 ∧ d.pending = [kUartMagicFirst] := by
  have length := pending_length (d := d) (by omega)
  have header := h.header
  match bytes : d.pending with
  | [] => exact .inl ⟨by rw [bytes] at length; exact length.symm, rfl⟩
  | [a] =>
    rw [bytes] at length header
    simp at header
    exact .inr ⟨length.symm, by rw [header]⟩
  | a :: b :: rest =>
    rw [bytes, List.length_cons, List.length_cons] at length
    omega

/- One more byte while hunting. -/
def hunt (pending : List UInt8) (byte : UInt8) : List UInt8 :=
  if pending = [kUartMagicFirst] ∧ byte = kUartMagicSecond then [kUartMagicFirst, kUartMagicSecond]
  else if byte = kUartMagicFirst then [kUartMagicFirst]
  else []

theorem Sane.feed_hunting (h : Sane d) (hunting : d.position ≤ 1) (byte : UInt8) :
    (feed d byte).2 = none ∧ (feed d byte).1.errors = d.errors ∧ Sane (feed d byte).1 ∧
      (feed d byte).1.pending = hunt d.pending byte := by
  obtain ⟨position, bytes⟩ | ⟨position, bytes⟩ := h.hunting_cases hunting
  · by_cases first : byte = kUartMagicFirst
    · have stored := store_pending (d := d) (by omega) byte
      have next : feed d byte = (d.store byte, none) := by simp [feed, position, first]
      rw [next, bytes, first] at *
      refine ⟨rfl, rfl, ⟨?_, ?_⟩, stored⟩
      · simp [store, position]
      · rw [stored]; simp
    · have next : feed d byte = (d, none) := by simp [feed, position, first]
      rw [next, bytes]
      exact ⟨rfl, rfl, h, by simp [hunt, first]⟩
  · by_cases second : byte = kUartMagicSecond
    · have stored := store_pending (d := d) (by omega) byte
      have next : feed d byte = (d.store byte, none) := by simp [feed, position, second]
      rw [next, bytes, second] at *
      refine ⟨rfl, rfl, ⟨?_, ?_⟩, stored⟩
      · simp [store, position]
      · rw [stored]; simp
    · by_cases first : byte = kUartMagicFirst
      · have next : feed d byte = (d, none) := by
          simp [feed, position, first, kUartMagicFirst, kUartMagicSecond]
        rw [next]
        exact ⟨rfl, rfl, h, by simp [hunt, bytes, first, kUartMagicFirst, kUartMagicSecond]⟩
      · have next : feed d byte = ({ d with position := 0 }, none) := by
          simp [feed, position, first, second]
        rw [next, bytes]
        exact ⟨rfl, rfl, sane_start rfl, by simp [hunt, first, second, pending]⟩

theorem Sane.feed_filling (h : Sane d) (low : 2 ≤ d.position) (high : d.position < 11)
    (byte : UInt8) :
    (feed d byte).2 = none ∧ (feed d byte).1.errors = d.errors ∧ Sane (feed d byte).1 ∧
      (feed d byte).1.pending = d.pending ++ [byte] := by
  have next : feed d byte = (d.store byte, none) := by
    have notFirst : d.position ≠ 0 := by omega
    have notSecond : d.position ≠ 1 := by omega
    have room : d.position + 1 < kUartFrameSize := by unfold kUartFrameSize; omega
    simp [feed, store, notFirst, notSecond, room]
  have stored := store_pending h.inside byte
  rw [next]
  refine ⟨rfl, rfl, ⟨?_, ?_⟩, stored⟩
  · simp only [store]; omega
  · rw [stored, List.take_append_of_le_length (by rw [pending_length (by omega)]; exact low)]
    exact h.header

/- What a verdict adds to the error counters. -/
def tally : Except DecodeError UartFrame → Nat × Nat → Nat × Nat
  | .error .crc, (crc, format) => (SizeT.increment crc, format)
  | .error .format, (crc, format) => (crc, SizeT.increment format)
  | .ok _, errors => errors

/-- The twelfth byte: the verdict on the window decides the counters and the answer. -/
theorem Sane.feed_complete (h : Sane d) (last : d.position = 11) (byte : UInt8) :
    (feed d byte).2 = (judge (d.pending ++ [byte])).toOption ∧
    (feed d byte).1.errors = tally (judge (d.pending ++ [byte])) d.errors ∧
    (feed d byte).1.position = 0 := by
  have next : feed d byte = (d.store byte).complete := by
    simp [feed, store, last, kUartFrameSize]
  have window : (d.store byte).buffer.toList = d.pending ++ [byte] := by
    rw [← store_pending h.inside byte, pending]
    exact (List.take_of_length_le (by simp [store, last])).symm
  rw [next, complete, window]
  cases verdict : judge (d.pending ++ [byte]) with
  | ok frame => exact ⟨rfl, rfl, rfl⟩
  | error error => cases error <;> exact ⟨rfl, rfl, rfl⟩

end Step

end UartFrameDecoder

end EdgeSentinel

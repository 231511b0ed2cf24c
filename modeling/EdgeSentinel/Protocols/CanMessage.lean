import EdgeSentinel.Library.BigEndian
import EdgeSentinel.Protocols.Measurement

/-! The CAN messages of the sensors. Three identifiers carry a reading and need four bytes;
the fourth carries the online flag and needs one. -/
namespace EdgeSentinel

def kCanTemperatureId : UInt32 := 0x101
def kCanVibrationId : UInt32 := 0x102
def kCanCurrentId : UInt32 := 0x103
def kCanOnlineId : UInt32 := 0x104

structure CanMessage where
  id : UInt32 := 0
  length : UInt8 := 0
  data : Vector UInt8 8 := Vector.replicate 8 0
  deriving DecidableEq, Repr

namespace CanMessage

/- The chain of comparisons in the middle of the decoder. -/
def readingKind (id : UInt32) : Option MeasurementKind :=
  if id = kCanTemperatureId then some .temperature
  else if id = kCanVibrationId then some .vibration
  else if id = kCanCurrentId then some .current
  else none

def raw (message : CanMessage) : UInt32 :=
  BigEndian.word32 message.data[0] message.data[1] message.data[2] message.data[3]

def decodeCanMessage (thousandth : Int32 → Double) (message : CanMessage) : Option Measurement :=
  if message.id = kCanOnlineId then
    if message.length < 1 then none
    else some { kind := .online, value := if message.data[0] = 0 then .finite 0 else .finite 1 }
  else if message.length < 4 then none
  else
    (readingKind message.id).map fun kind =>
      { kind := kind, value := thousandth message.raw.toInt32 }

/-- The messages that the table of identifiers and lengths allows. -/
def Addressed (message : CanMessage) : Prop :=
  (message.id = kCanOnlineId ∧ 1 ≤ message.length) ∨
    ((message.id = kCanTemperatureId ∨ message.id = kCanVibrationId ∨
      message.id = kCanCurrentId) ∧ 4 ≤ message.length)

instance (message : CanMessage) : Decidable message.Addressed :=
  inferInstanceAs (Decidable (_ ∨ _))

theorem readingKind_some {id : UInt32} {kind : MeasurementKind}
    (known : readingKind id = some kind) :
    (id = kCanTemperatureId ∨ id = kCanVibrationId ∨ id = kCanCurrentId) ∧ kind ≠ .online := by
  unfold readingKind at known
  split at known
  · rename_i here
    cases known
    exact ⟨.inl here, by decide⟩
  · split at known
    · rename_i here
      cases known
      exact ⟨.inr (.inl here), by decide⟩
    · split at known
      · rename_i here
        cases known
        exact ⟨.inr (.inr here), by decide⟩
      · contradiction

theorem readingKind_none {id : UInt32} (unknown : readingKind id = none) :
    ¬ (id = kCanTemperatureId ∨ id = kCanVibrationId ∨ id = kCanCurrentId) := by
  rintro (rfl | rfl | rfl) <;> contradiction

/-- Every message is ignored, or carries a reading, or carries the online flag. -/
theorem decode_cases (thousandth : Int32 → Double) (message : CanMessage) :
    (¬ message.Addressed ∧ decodeCanMessage thousandth message = none) ∨
    (message.Addressed ∧ message.id ≠ kCanOnlineId ∧ ∃ kind, kind ≠ MeasurementKind.online ∧
      decodeCanMessage thousandth message =
        some { kind := kind, value := thousandth message.raw.toInt32 }) ∨
    (message.Addressed ∧ message.id = kCanOnlineId ∧
      decodeCanMessage thousandth message =
        some { kind := .online,
               value := if message.data[0] = 0 then .finite 0 else .finite 1 }) := by
  unfold decodeCanMessage Addressed
  by_cases online : message.id = kCanOnlineId
  · rw [if_pos online]
    have other : ¬ (message.id = kCanTemperatureId ∨ message.id = kCanVibrationId ∨
        message.id = kCanCurrentId) := by
      rw [online]
      decide
    by_cases short : message.length < 1
    · refine .inl ⟨?_, if_pos short⟩
      rintro (⟨-, long⟩ | ⟨reading, -⟩)
      · exact absurd short (UInt8.not_lt.mpr long)
      · exact other reading
    · exact .inr (.inr ⟨.inl ⟨online, UInt8.not_lt.mp short⟩, online, if_neg short⟩)
  · rw [if_neg online]
    by_cases short : message.length < 4
    · refine .inl ⟨?_, if_pos short⟩
      rintro (⟨here, -⟩ | ⟨-, long⟩)
      · exact online here
      · exact absurd short (UInt8.not_lt.mpr long)
    · rw [if_neg short]
      cases known : readingKind message.id with
      | none =>
        refine .inl ⟨?_, rfl⟩
        rintro (⟨here, -⟩ | ⟨reading, -⟩)
        · exact online here
        · exact readingKind_none known reading
      | some kind =>
        obtain ⟨reading, measured⟩ := readingKind_some known
        exact .inr (.inl ⟨.inr ⟨reading, UInt8.not_lt.mp short⟩, online, kind, measured, rfl⟩)

end CanMessage

end EdgeSentinel

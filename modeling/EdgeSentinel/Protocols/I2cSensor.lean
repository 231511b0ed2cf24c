import EdgeSentinel.Library.BigEndian
import EdgeSentinel.Protocols.Measurement

/-! The I2C sensor reader. The bus is any machine that answers a register read with success
or failure and some bytes; a read that fails may have written its output. The quotient by
100.0 stays a parameter of the reader. -/
namespace EdgeSentinel

def kTemperatureRegister : UInt8 := 0x01
def kVibrationRegister : UInt8 := 0x03
def kCurrentRegister : UInt8 := 0x05
def kStatusRegister : UInt8 := 0x07

/-- `II2cBus`, with the bytes of the output span before and after the call. -/
structure I2cBus (β : Type) where
  readRegister : β → UInt8 → {n : Nat} → Vector UInt8 n → β × Bool × Vector UInt8 n

/- The four output arrays of one call. -/
structure I2cRegisters where
  temperature : Vector UInt8 2
  vibration : Vector UInt8 2
  current : Vector UInt8 2
  status : Vector UInt8 1
  deriving DecidableEq, Repr

structure I2cSensorReader where
  lastSample : SensorSample := {}
  sequence : UInt64 := 0
  deriving DecidableEq, Repr

namespace I2cSensorReader

variable {β : Type}

/- The four reads, of which the first that fails ends the chain. -/
def fetch (bus : I2cBus β) (state : β) : β × Option I2cRegisters :=
  let (state, ok, temperature) := bus.readRegister state kTemperatureRegister (.replicate 2 0)
  if !ok then (state, none)
  else
    let (state, ok, vibration) := bus.readRegister state kVibrationRegister (.replicate 2 0)
    if !ok then (state, none)
    else
      let (state, ok, current) := bus.readRegister state kCurrentRegister (.replicate 2 0)
      if !ok then (state, none)
      else
        let (state, ok, status) := bus.readRegister state kStatusRegister (.replicate 1 0)
        if !ok then (state, none) else (state, some { temperature, vibration, current, status })

def decodeU16 (bytes : Vector UInt8 2) : UInt16 := BigEndian.word16 bytes[0] bytes[1]

/- Bit 0 of the status register. -/
def isOnline (registers : I2cRegisters) : Bool := registers.status[0] &&& 0x01 ≠ 0

section Reading

variable (hundredth : Int → Double)

/- The three quotients of a complete set of registers. -/
def decoded (registers : I2cRegisters) : Double × Double × Double :=
  (hundredth (decodeU16 registers.temperature).toInt16.toInt,
    hundredth (decodeU16 registers.vibration).toNat, hundredth (decodeU16 registers.current).toNat)

/- What a call makes of the registers it has read. -/
def update (reader : I2cSensorReader) (fetched : Option I2cRegisters) : I2cSensorReader :=
  let sequence := reader.sequence + 1
  match fetched with
  | none =>
    { lastSample := { reader.lastSample with online := false, sequence := sequence }
      sequence := sequence }
  | some registers =>
    { lastSample :=
        { temperatureC := (decoded hundredth registers).1
          vibrationMmS := (decoded hundredth registers).2.1
          currentA := (decoded hundredth registers).2.2
          online := isOnline registers
          sequence := sequence }
      sequence := sequence }

def read (bus : I2cBus β) (state : β × I2cSensorReader) : (β × I2cSensorReader) × SensorSample :=
  let (next, fetched) := fetch bus state.1
  let reader := update hundredth state.2 fetched
  ((next, reader), reader.lastSample)

/- The bus and the reader after some calls. -/
def after (bus : I2cBus β) (start : β) : Nat → β × I2cSensorReader
  | 0 => (start, {})
  | k + 1 => (read hundredth bus (after bus start k)).1

/- What call number `k + 1` returns. -/
def returned (bus : I2cBus β) (start : β) (k : Nat) : SensorSample :=
  (read hundredth bus (after hundredth bus start k)).2

end Reading

/- The bus after some calls. The reader does not choose what it reads. -/
def busAfter (bus : I2cBus β) (start : β) : Nat → β
  | 0 => start
  | k + 1 => (fetch bus (busAfter bus start k)).1

/- The registers of call number `k + 1`, if all four reads succeeded. -/
def fetched (bus : I2cBus β) (start : β) (k : Nat) : Option I2cRegisters :=
  (fetch bus (busAfter bus start k)).2

/-- All four reads of a call that finds the bus in the given state succeed, with these
outputs. -/
def Complete (bus : I2cBus β) (state : β) (registers : I2cRegisters) : Prop :=
  ∃ first second third last,
    bus.readRegister state kTemperatureRegister (.replicate 2 0) =
      (first, true, registers.temperature) ∧
    bus.readRegister first kVibrationRegister (.replicate 2 0) =
      (second, true, registers.vibration) ∧
    bus.readRegister second kCurrentRegister (.replicate 2 0) =
      (third, true, registers.current) ∧
    bus.readRegister third kStatusRegister (.replicate 1 0) = (last, true, registers.status)

theorem fetch_eq_some (bus : I2cBus β) (state : β) (registers : I2cRegisters) :
    (fetch bus state).2 = some registers ↔ Complete bus state registers := by
  constructor
  · intro done
    rcases firstRead : bus.readRegister state kTemperatureRegister (.replicate 2 0) with
      ⟨first, ok, temperature⟩
    simp only [fetch, firstRead] at done
    cases ok with
    | false => contradiction
    | true =>
      rcases secondRead : bus.readRegister first kVibrationRegister (.replicate 2 0) with
        ⟨second, ok, vibration⟩
      simp only [secondRead] at done
      cases ok with
      | false => contradiction
      | true =>
        rcases thirdRead : bus.readRegister second kCurrentRegister (.replicate 2 0) with
          ⟨third, ok, current⟩
        simp only [thirdRead] at done
        cases ok with
        | false => contradiction
        | true =>
          rcases lastRead : bus.readRegister third kStatusRegister (.replicate 1 0) with
            ⟨last, ok, status⟩
          simp only [lastRead] at done
          cases ok with
          | false => contradiction
          | true =>
            cases done
            exact ⟨first, second, third, last, firstRead, secondRead, thirdRead, lastRead⟩
  · rintro ⟨first, second, third, last, firstRead, secondRead, thirdRead, lastRead⟩
    simp only [fetch, firstRead, secondRead, thirdRead, lastRead, Bool.not_true,
      Bool.false_eq_true, if_false]

/- The registers of the most recent of the first calls in which all four reads succeeded. -/
def lastFetched (bus : I2cBus β) (start : β) : Nat → Option I2cRegisters
  | 0 => none
  | k + 1 => (fetched bus start k).or (lastFetched bus start k)

section Runs

variable (hundredth : Int → Double) (bus : I2cBus β) (start : β)

theorem after_bus (k : Nat) : (after hundredth bus start k).1 = busAfter bus start k := by
  induction k with
  | zero => rfl
  | succ k ih => rw [after, read, busAfter, ih]

theorem after_reader (k : Nat) :
    (after hundredth bus start (k + 1)).2 =
      update hundredth (after hundredth bus start k).2 (fetched bus start k) := by
  rw [after, read, fetched, after_bus]

theorem returned_eq (k : Nat) :
    returned hundredth bus start k = (after hundredth bus start (k + 1)).2.lastSample := rfl

theorem after_sequence (k : Nat) :
    (after hundredth bus start k).2.sequence = UInt64.ofNat k := by
  induction k with
  | zero => rfl
  | succ k ih =>
    rw [after_reader, UInt64.ofNat_add, ← ih]
    cases fetched bus start k <;> rfl

/-- The readings are those of the last complete set of registers, all three together. -/
theorem after_readings (k : Nat) :
    (after hundredth bus start k).2.lastSample.readings =
      ((lastFetched bus start k).map (decoded hundredth)).getD
        (.finite 0, .finite 0, .finite 0) := by
  induction k with
  | zero => rfl
  | succ k ih =>
    rw [after_reader, lastFetched]
    cases fetched bus start k with
    | none => exact ih
    | some registers => rfl

theorem update_sequence (reader : I2cSensorReader) (fetched : Option I2cRegisters) :
    (update hundredth reader fetched).lastSample.sequence =
      (update hundredth reader fetched).sequence := by
  cases fetched <;> rfl

theorem update_online (reader : I2cSensorReader) (fetched : Option I2cRegisters) :
    (update hundredth reader fetched).lastSample.online = fetched.any isOnline := by
  cases fetched <;> rfl

end Runs

/- The quotient without rounding. -/
def exactHundredth (value : Int) : Double := .finite (value / 100)

/- The number in the two bytes of a register, most significant first, and the same number in
two's complement. -/
def unsigned (bytes : Vector UInt8 2) : Int := 256 * bytes[0].toNat + bytes[1].toNat
def signed (bytes : Vector UInt8 2) : Int :=
  if unsigned bytes < 2 ^ 15 then unsigned bytes else unsigned bytes - 2 ^ 16

theorem decodeU16_unsigned (bytes : Vector UInt8 2) :
    ((decodeU16 bytes).toNat : Int) = unsigned bytes := by
  rw [decodeU16, BigEndian.word16_toNat, unsigned]
  omega

theorem decodeU16_signed (bytes : Vector UInt8 2) :
    (decodeU16 bytes).toInt16.toInt = signed bytes := by
  rw [signed, decodeU16, BigEndian.word16_toInt, unsigned]
  dsimp only
  split <;> split <;> omega

theorem decoded_exact (registers : I2cRegisters) :
    decoded exactHundredth registers =
      (.finite (signed registers.temperature / 100), .finite (unsigned registers.vibration / 100),
        .finite (unsigned registers.current / 100)) := by
  simp only [decoded, exactHundredth, decodeU16_signed, decodeU16_unsigned]

/-- For every bus and every call: the sequence numbers the call, the readings are together
those of the last call in which all four reads succeeded, each a hundredth of its register
(the temperature's a signed one), and the sample is online exactly if they succeeded in this
call and the status says so. -/
theorem samples_never_torn (bus : I2cBus β) (start : β) (k : Nat) :
    let sample := returned exactHundredth bus start k
    sample.sequence = UInt64.ofNat (k + 1) ∧
    sample.readings =
      ((lastFetched bus start (k + 1)).map fun registers =>
        (.finite (signed registers.temperature / 100), .finite (unsigned registers.vibration / 100),
          .finite (unsigned registers.current / 100))).getD (.finite 0, .finite 0, .finite 0) ∧
    (∀ registers, fetched bus start k = some registers ↔
      Complete bus (busAfter bus start k) registers) ∧
    (sample.online = true ↔ ∃ registers, Complete bus (busAfter bus start k) registers ∧
      registers.status[0] &&& 0x01 ≠ 0) := by
  intro sample
  have same : sample = (after exactHundredth bus start (k + 1)).2.lastSample :=
    returned_eq exactHundredth bus start k
  have complete : ∀ registers, fetched bus start k = some registers ↔
      Complete bus (busAfter bus start k) registers := fetch_eq_some bus _
  refine ⟨?_, ?_, complete, ?_⟩
  · rw [same, ← after_sequence exactHundredth bus start, after_reader, update_sequence]
  · rw [same, after_readings exactHundredth bus start, funext decoded_exact]
  · rw [same, after_reader, update_online, Option.any_eq_true]
    simp only [isOnline, decide_eq_true_eq, complete]

end I2cSensorReader

end EdgeSentinel

import EdgeSentinel.Protocols.UartStream

/-! The UART adapter. A call of `read` takes what one `poll` and one `::read` report; the
quotient of a reading by 1000.0 stays a parameter, since its rounding decides nothing
here. -/
namespace EdgeSentinel

/- The values of `<cerrno>` that the adapter looks at. -/
def EINTR : Nat := 4
def EAGAIN : Nat := 11
def EINVAL : Nat := 22

/- `wait_for_input` and the `::read` after it. -/
inductive UartInput where
  | notReady
  | received (bytes : List UInt8)
  | failed (errno : Nat)
  deriving DecidableEq, Repr

structure UartSensorSource where
  descriptor : Bool := false
  decoder : UartFrameDecoder := {}
  sample : SensorSample := {}
  sequence : UInt64 := 0
  errorNumber : Nat := 0
  deriving DecidableEq, Repr

def baudKnown (baudRate : Int) : Bool := baudRate = 9600 || baudRate = 57600 || baudRate = 115200

namespace UartSensorSource

/- The constructor; `setup` is the `errno` of the first call that failed, if one did. -/
def create (baudRate : Int) (setup : Option Nat) : UartSensorSource :=
  if !baudKnown baudRate then { errorNumber := EINVAL }
  else
    match setup with
    | some errno => { errorNumber := errno }
    | none => { descriptor := true, sample := { online := true } }

/- The quotient without rounding. -/
def exactThousandth (milliValue : Int32) : Double := .finite (milliValue.toInt / 1000)

section Reading

variable (thousandth : Int32 → Double)

def decodeUartMeasurement (frame : UartFrame) : Measurement :=
  if frame.kind = .online then
    { kind := frame.kind, value := if frame.milliValue = 0 then .finite 0 else .finite 1 }
  else { kind := frame.kind, value := thousandth frame.milliValue }

/- What a frame does to the sample. -/
def takeFrame (sample : SensorSample) (frame : UartFrame) : SensorSample :=
  let measurement := decodeUartMeasurement thousandth frame
  let sample := applyMeasurement sample measurement
  if measurement.kind ≠ .online then { sample with online := true } else sample

/- One round of the loop over the received bytes, with `received_measurement`. -/
def takeByte (state : UartSensorSource × Bool) (byte : UInt8) : UartSensorSource × Bool :=
  let (decoder, answer) := state.1.decoder.feed byte
  match answer with
  | none => ({ state.1 with decoder := decoder }, state.2)
  | some frame =>
    ({ state.1 with decoder := decoder, sample := takeFrame thousandth state.1.sample frame }, true)

/- The part of `read` that talks to the descriptor. -/
def poll (source : UartSensorSource) : UartInput → UartSensorSource × Bool
  | .notReady => (source, false)
  | .received bytes => bytes.foldl (takeByte thousandth) (source, false)
  | .failed errno =>
    (if errno ≠ EAGAIN ∧ errno ≠ EINTR then { source with errorNumber := errno } else source,
      false)

/- The end of `read`: without a measurement the sensor counts as offline. -/
def report (state : UartSensorSource × Bool) : UartSensorSource × SensorSample :=
  let sample :=
    { state.1.sample with
      online := if state.2 then state.1.sample.online else false
      sequence := state.1.sequence }
  ({ state.1 with sample := sample }, sample)

def read (source : UartSensorSource) (input : UartInput) : UartSensorSource × SensorSample :=
  let source := { source with sequence := source.sequence + 1 }
  report (if source.descriptor then source.poll thousandth input else (source, false))

end Reading

section Reports

variable {thousandth : Int32 → Double} {source : UartSensorSource} {received : Bool}

/- What the decoder answers to the bytes, each with whether it completes a frame. -/
def answers (source : UartSensorSource) (bytes : List UInt8) : List (Option UartFrame) :=
  Mealy.outputs UartFrameDecoder.feed source.decoder bytes

/- Frames that report a measurement, not the sensor's own online flag. -/
def Measured (answers : List (Option UartFrame)) : Prop :=
  ∀ frame, some frame ∈ answers → frame.kind ≠ .online

/-- What the loop over the bytes leaves behind. -/
structure Takes (bytes : List UInt8) (source : UartSensorSource) (received : Bool)
    (result : UartSensorSource × Bool) : Prop where
  decoder : result.1.decoder = Mealy.final UartFrameDecoder.feed source.decoder bytes
  descriptor : result.1.descriptor = source.descriptor
  received : result.2 = (received || (source.answers bytes).any Option.isSome)
  online : Measured (source.answers bytes) →
    result.1.sample.online = (source.sample.online || (source.answers bytes).any Option.isSome)

theorem takeFrame_online {frame : UartFrame} (measured : frame.kind ≠ .online)
    (sample : SensorSample) : (takeFrame thousandth sample frame).online = true := by
  have kind : (decodeUartMeasurement thousandth frame).kind ≠ .online := by
    rw [decodeUartMeasurement, if_neg measured]
    exact measured
  simp only [takeFrame, if_pos kind]

theorem takeByte_takes (byte : UInt8) :
    Takes [byte] source received (takeByte thousandth (source, received) byte) := by
  have told : source.answers [byte] = [(source.decoder.feed byte).2] := rfl
  cases answer : (source.decoder.feed byte).2 with
  | none =>
    rw [answer] at told
    simp only [takeByte, answer]
    exact ⟨rfl, rfl, by simp [told], fun _ => by simp [told]⟩
  | some frame =>
    rw [answer] at told
    simp only [takeByte, answer]
    refine ⟨rfl, rfl, by simp [told], fun measured => ?_⟩
    have kind : frame.kind ≠ .online := measured frame (by simp [told])
    simp [told, takeFrame_online kind]

theorem Takes.cons {byte : UInt8} {bytes : List UInt8} {next result : UartSensorSource × Bool}
    (first : Takes [byte] source received next) (rest : Takes bytes next.1 next.2 result) :
    Takes (byte :: bytes) source received result := by
  have all : source.answers (byte :: bytes) = source.answers [byte] ++ next.1.answers bytes := by
    rw [answers, answers, answers, first.decoder]
    rfl
  refine ⟨?_, rest.descriptor.trans first.descriptor, ?_, ?_⟩
  · rw [rest.decoder, first.decoder]
    rfl
  · rw [rest.received, first.received, all, List.any_append, Bool.or_assoc]
  · intro measured
    rw [all] at measured
    rw [rest.online fun frame later => measured frame (List.mem_append_right _ later),
      first.online fun frame now => measured frame (List.mem_append_left _ now), all,
      List.any_append, Bool.or_assoc]

theorem foldl_takes (bytes : List UInt8) :
    Takes bytes source received (bytes.foldl (takeByte thousandth) (source, received)) := by
  induction bytes generalizing source received with
  | nil => exact ⟨rfl, rfl, by simp [answers], fun _ => by simp [answers]⟩
  | cons byte bytes ih => exact (takeByte_takes byte).cons ih

theorem Takes.report {bytes : List UInt8} {result : UartSensorSource × Bool}
    (loop : Takes bytes source false result) (measured : Measured (source.answers bytes)) :
    (report result).2.online = (source.answers bytes).any Option.isSome := by
  have received := loop.received
  have online := loop.online measured
  cases told : (source.answers bytes).any Option.isSome <;>
    simp_all [UartSensorSource.report]

variable (thousandth) in
/-- A call that receives bytes reports the sensor online exactly if one of them
completes a frame. -/
theorem read_received (valid : source.descriptor = true) (bytes : List UInt8) :
    (source.read thousandth (.received bytes)).1.decoder =
        Mealy.final UartFrameDecoder.feed source.decoder bytes ∧
      (source.read thousandth (.received bytes)).1.descriptor = true ∧
      (Measured (source.answers bytes) → (source.read thousandth (.received bytes)).2.online =
        (source.answers bytes).any Option.isSome) := by
  have loop : Takes bytes { source with sequence := source.sequence + 1 } false
      (bytes.foldl (takeByte thousandth)
        ({ source with sequence := source.sequence + 1 }, false)) := foldl_takes bytes
  have called : source.read thousandth (.received bytes) = report _ :=
    congrArg report (if_pos valid)
  rw [called]
  exact ⟨loop.decoder, loop.descriptor.trans valid, loop.report⟩

end Reports

end UartSensorSource

end EdgeSentinel

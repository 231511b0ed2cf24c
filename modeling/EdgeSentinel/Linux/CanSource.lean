import EdgeSentinel.Linux.UartSource
import EdgeSentinel.Protocols.CanMessage

/-! The SocketCAN adapter. The kernel puts three flags above the identifier of a frame; the
adapter masks them away and never looks at them again. -/
namespace EdgeSentinel

/- `can_id` of the kernel: an identifier of up to 29 bits below three flags. -/
def CAN_EFF_FLAG : UInt32 := 0x80000000
def CAN_RTR_FLAG : UInt32 := 0x40000000
def CAN_ERR_FLAG : UInt32 := 0x20000000
def CAN_EFF_MASK : UInt32 := 0x1FFFFFFF

def IFNAMSIZ : Nat := 16

structure CanFrame where
  canId : UInt32 := 0
  canDlc : UInt8 := 0
  data : Vector UInt8 8 := Vector.replicate 8 0
  deriving DecidableEq, Repr

/- `wait_for_input` and the `::read` after it; `truncated` is any count but a whole frame. -/
inductive CanInput where
  | notReady
  | received (frame : CanFrame)
  | truncated
  | failed (errno : Nat)
  deriving DecidableEq, Repr

/- The message that the adapter makes of a frame. -/
def CanFrame.message (frame : CanFrame) : CanMessage where
  id := frame.canId &&& CAN_EFF_MASK
  length := frame.canDlc
  data := frame.data

structure SocketCanSensorSource where
  descriptor : Bool := false
  sample : SensorSample := {}
  sequence : UInt64 := 0
  errorNumber : Nat := 0
  deriving DecidableEq, Repr

namespace SocketCanSensorSource

/- The constructor; `setup` is the `errno` of the first call that failed, if one did. -/
def create (interfaceName : String) (setup : Option Nat) : SocketCanSensorSource :=
  if interfaceName.isEmpty || interfaceName.utf8ByteSize ≥ IFNAMSIZ then { errorNumber := EINVAL }
  else
    match setup with
    | some errno => { errorNumber := errno }
    | none => { descriptor := true, sample := { online := true } }

section Reading

variable (thousandth : Int32 → Double)

/- What a measurement does to the sample. -/
def takeMeasurement (sample : SensorSample) (measurement : Measurement) : SensorSample :=
  let sample := applyMeasurement sample measurement
  if measurement.kind ≠ .online then { sample with online := true } else sample

/- The part of `read` that talks to the descriptor, with `received_measurement`. -/
def poll (source : SocketCanSensorSource) : CanInput → SocketCanSensorSource × Bool
  | .notReady => (source, false)
  | .received frame =>
    match frame.message.decodeCanMessage thousandth with
    | none => (source, false)
    | some measurement =>
      ({ source with sample := takeMeasurement source.sample measurement }, true)
  | .truncated => (source, false)
  | .failed errno =>
    (if errno ≠ EAGAIN ∧ errno ≠ EINTR then { source with errorNumber := errno } else source,
      false)

/- The end of `read`: without a measurement the sensor counts as offline. -/
def report (state : SocketCanSensorSource × Bool) : SocketCanSensorSource × SensorSample :=
  let sample :=
    { state.1.sample with
      online := if state.2 then state.1.sample.online else false
      sequence := state.1.sequence }
  ({ state.1 with sample := sample }, sample)

def read (source : SocketCanSensorSource) (input : CanInput) :
    SocketCanSensorSource × SensorSample :=
  let source := { source with sequence := source.sequence + 1 }
  report (if source.descriptor then source.poll thousandth input else (source, false))

end Reading

end SocketCanSensorSource

namespace CanFrame

/- None of the three flags: a standard data frame. -/
def Plain (frame : CanFrame) : Prop :=
  frame.canId &&& (CAN_EFF_FLAG ||| CAN_RTR_FLAG ||| CAN_ERR_FLAG) = 0

/-- A data frame of one of the sensors, long enough for what it carries. -/
def Genuine (frame : CanFrame) : Prop := frame.Plain ∧ frame.message.Addressed

/-- An extended, remote or error frame that the mask turns into a sensor's identifier, and
that does not merely report the sensor offline. -/
def Aliased (frame : CanFrame) : Prop :=
  ¬ frame.Plain ∧ frame.message.Addressed ∧
    (frame.message.id = kCanOnlineId → frame.data.get 0 ≠ 0)

end CanFrame

namespace SocketCanSensorSource

section Guard

variable (thousandth : Int32 → Double) {source : SocketCanSensorSource}

/-- What is asked of a call that receives a frame: unless the frame is genuine, the readings
stay and the sample is offline. -/
def Guarded (source : SocketCanSensorSource) (frame : CanFrame) : Prop :=
  ¬ frame.Genuine →
    (source.read thousandth (.received frame)).2.readings = source.sample.readings ∧
      (source.read thousandth (.received frame)).2.online = false

theorem read_descriptor (source : SocketCanSensorSource) (input : CanInput) :
    (source.read thousandth input).1.descriptor = source.descriptor := by
  unfold read
  cases valid : source.descriptor with
  | false => simp [report]
  | true =>
    cases input with
    | notReady | truncated => simp [poll, report]
    | received frame =>
      simp only [poll, if_true, report]
      split <;> rfl
    | failed errno =>
      simp only [poll, if_true, report]
      split <;> rfl

theorem read_ignored (valid : source.descriptor = true) {frame : CanFrame}
    (ignored : frame.message.decodeCanMessage thousandth = none) :
    (source.read thousandth (.received frame)).2.readings = source.sample.readings ∧
      (source.read thousandth (.received frame)).2.online = false := by
  simp [read, valid, poll, ignored, report, SensorSample.readings]

theorem read_reading (valid : source.descriptor = true) {frame : CanFrame}
    {measurement : Measurement} (kind : measurement.kind ≠ .online)
    (taken : frame.message.decodeCanMessage thousandth = some measurement) :
    (source.read thousandth (.received frame)).2.online = true := by
  simp [read, valid, poll, taken, report, takeMeasurement, kind]

theorem read_online (valid : source.descriptor = true) {frame : CanFrame}
    {measurement : Measurement} (kind : measurement.kind = .online)
    (taken : frame.message.decodeCanMessage thousandth = some measurement) :
    (source.read thousandth (.received frame)).2.readings = source.sample.readings ∧
      (source.read thousandth (.received frame)).2.online =
        decide (measurement.value ≠ .finite 0) := by
  simp [read, valid, poll, taken, report, takeMeasurement, kind, applyMeasurement_online kind,
    SensorSample.readings]

/-- A frame after which the sample is online must have been genuine. -/
theorem guarded_iff_of_online {frame : CanFrame}
    (told : (source.read thousandth (.received frame)).2.online = true)
    (addressed : frame.message.Addressed) (suspect : ¬ frame.Plain → frame.Aliased) :
    Guarded thousandth source frame ↔ ¬ frame.Aliased := by
  constructor
  · intro guarded aliased
    have offline := (guarded fun genuine => aliased.1 genuine.1).2
    rw [told] at offline
    contradiction
  · intro honest alien
    refine absurd (suspect ?_) honest
    exact fun plain => alien ⟨plain, addressed⟩

/-- One call: only an aliased frame gets past the guard. -/
theorem guarded_iff (valid : source.descriptor = true) (frame : CanFrame) :
    Guarded thousandth source frame ↔ ¬ frame.Aliased := by
  obtain ⟨other, ignored⟩ | ⟨addressed, reading, kind, measured, taken⟩ |
    ⟨addressed, online, taken⟩ := frame.message.decode_cases thousandth
  · exact iff_of_true (fun _ => read_ignored thousandth valid ignored) fun aliased =>
      other aliased.2.1
  · have told := read_reading thousandth valid measured taken
    exact guarded_iff_of_online thousandth told addressed fun alien =>
      ⟨alien, addressed, fun online => absurd online reading⟩
  · obtain ⟨same, told⟩ := read_online thousandth valid rfl taken
    by_cases down : frame.data[0] = 0
    · refine iff_of_true (fun _ => ⟨same, ?_⟩) fun aliased => aliased.2.2 online down
      rw [told]
      simp [CanFrame.message, down]
    · have up : (source.read thousandth (.received frame)).2.online = true := by
        rw [told]
        simp [CanFrame.message, down]
      exact guarded_iff_of_online thousandth up addressed fun alien =>
        ⟨alien, addressed, fun _ => down⟩

end Guard

/-- Over every sequence of calls: each call that receives a frame is guarded exactly if none
of the frames is aliased. -/
theorem can_source_guarded_iff (thousandth : Int32 → Double) (source : SocketCanSensorSource)
    (valid : source.descriptor = true) (inputs : List CanInput) :
    (∀ n frame, inputs[n]? = some (.received frame) →
      Guarded thousandth (Mealy.final (read thousandth) source (inputs.take n)) frame) ↔
    ∀ frame, .received frame ∈ inputs → ¬ frame.Aliased := by
  have still : ∀ past, (Mealy.final (read thousandth) source past).descriptor = true :=
    Mealy.invariant (read thousandth) (P := fun source => source.descriptor = true) valid
      fun source input here => (read_descriptor thousandth source input).trans here
  constructor
  · intro guarded frame member
    obtain ⟨n, found⟩ := List.mem_iff_getElem?.mp member
    exact (guarded_iff thousandth (still _) frame).mp (guarded n frame found)
  · intro honest n frame found
    exact (guarded_iff thousandth (still _) frame).mpr (honest frame (List.mem_of_getElem? found))

/- An identifier that no sensor has. -/
theorem can_source_guarded_iff_plain :
    Guarded UartSensorSource.exactThousandth (create "can0" none) { canId := 0x777, canDlc := 4 } :=
  (can_source_guarded_iff UartSensorSource.exactThousandth (create "can0" none) rfl
    [.received { canId := 0x777, canDlc := 4 }]).mpr
    (by
      intro frame member
      cases List.mem_singleton.mp member
      rintro ⟨-, addressed, -⟩
      revert addressed
      decide) 0 _ rfl

/- An extended frame with the 29-bit identifier 0x101. -/
theorem extended_frame_accepted :
    let frame : CanFrame :=
      { canId := 0x80000101, canDlc := 4, data := #v[0x00, 0x01, 0x9C, 0x1C, 0, 0, 0, 0] }
    let read := (create "can0" none).read UartSensorSource.exactThousandth (.received frame)
    frame.canId &&& CAN_EFF_FLAG ≠ 0 ∧ read.2.temperatureC = .finite (105500 / 1000) ∧
      read.2.online = true := by
  decide +kernel

end SocketCanSensorSource

end EdgeSentinel

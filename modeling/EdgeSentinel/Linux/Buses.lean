import EdgeSentinel.Linux.UartSource
import EdgeSentinel.Protocols.CanMessage
import EdgeSentinel.Protocols.UartStream

/-! The same readings over both buses. A UART frame and a CAN message dress a reading
differently, and each is taken apart by code of its own; what reaches the sample is the
same measurement. -/
namespace EdgeSentinel

/-- A reading to be sent, with what each bus adds to it: the sequence number of the frame,
and the length and the last four bytes of the message. -/
structure Delivery where
  kind : MeasurementKind
  milliValue : Int32
  sequence : UInt16 := 0
  length : UInt8 := 4
  trailing : Vector UInt8 4 := Vector.replicate 4 0
  measured : kind ≠ .online
  long : 4 ≤ length
  short : length ≤ 8

namespace Delivery

def frame (delivery : Delivery) : UartFrame where
  kind := delivery.kind
  sequence := delivery.sequence
  milliValue := delivery.milliValue

/- The four bytes of the value in front. -/
def message (delivery : Delivery) : CanMessage where
  id := 0x100 + delivery.kind.code.toUInt32
  length := delivery.length
  data := ⟨(BigEndian.bytes32 delivery.milliValue.toUInt32 ++ delivery.trailing.toList).toArray,
    by simp [BigEndian.bytes32]⟩

section Decoding

variable (thousandth : Int32 → Double) (delivery : Delivery)

/- What both decoders make of it. -/
def measurement : Measurement where
  kind := delivery.kind
  value := thousandth delivery.milliValue

theorem decode_frame :
    UartSensorSource.decodeUartMeasurement thousandth delivery.frame =
      delivery.measurement thousandth :=
  if_neg delivery.measured

theorem message_raw : delivery.message.raw = delivery.milliValue.toUInt32 := by
  apply BigEndian.word32_bytes32
  rfl

theorem message_kind : CanMessage.readingKind delivery.message.id = some delivery.kind := by
  have measured := delivery.measured
  rw [message]
  cases kind : delivery.kind with
  | online => exact absurd kind measured
  | _ => rfl

theorem message_reading : delivery.message.id ≠ kCanOnlineId := by
  intro online
  have known := delivery.message_kind
  rw [online] at known
  contradiction

theorem decode_message :
    delivery.message.decodeCanMessage thousandth = some (delivery.measurement thousandth) := by
  have long : ¬ delivery.message.length < 4 := UInt8.not_lt.mpr delivery.long
  rw [CanMessage.decodeCanMessage, if_neg delivery.message_reading, if_neg long,
    delivery.message_kind, delivery.message_raw]
  rfl

end Decoding

end Delivery

section Buses

variable (thousandth : Int32 → Double)

/- Through the encoder, the decoder byte by byte, and the measurements of its frames. -/
def overUart (d : UartFrameDecoder) (sample : SensorSample) (deliveries : List Delivery) :
    SensorSample :=
  let bytes := deliveries.flatMap fun delivery => encodeUartFrame delivery.frame
  let frames := (Mealy.outputs UartFrameDecoder.feed d bytes).filterMap id
  (frames.map (UartSensorSource.decodeUartMeasurement thousandth)).foldl applyMeasurement sample

/- Message by message; one that the decoder refuses changes nothing. -/
def overCan (sample : SensorSample) (deliveries : List Delivery) : SensorSample :=
  let measurements := (deliveries.map Delivery.message).filterMap
    (CanMessage.decodeCanMessage thousandth)
  measurements.foldl applyMeasurement sample

theorem overUart_measurements {d : UartFrameDecoder} (start : d.position = 0)
    (sample : SensorSample) (deliveries : List Delivery) :
    overUart thousandth d sample deliveries =
      (deliveries.map (Delivery.measurement thousandth)).foldl applyMeasurement sample := by
  have frames := UartFrameDecoder.outputs_frames start (deliveries.map Delivery.frame)
  rw [List.flatMap_map] at frames
  rw [overUart, frames, List.map_map]
  congr 1
  apply List.map_congr_left
  intro delivery _
  exact delivery.decode_frame thousandth

theorem overCan_measurements (sample : SensorSample) (deliveries : List Delivery) :
    overCan thousandth sample deliveries =
      (deliveries.map (Delivery.measurement thousandth)).foldl applyMeasurement sample := by
  have decoded : (deliveries.map Delivery.message).filterMap
      (CanMessage.decodeCanMessage thousandth) =
      deliveries.map (Delivery.measurement thousandth) := by
    rw [List.filterMap_map, ← List.filterMap_eq_map]
    apply List.filterMap_congr
    intro delivery _
    exact delivery.decode_message thousandth
  rw [overCan, decoded]

end Buses

/-- Both buses end in the same sample, the one in which every value is a thousandth of what
was sent. -/
theorem buses_agree (d : UartFrameDecoder) (start : d.position = 0) (sample : SensorSample)
    (deliveries : List Delivery) :
    overUart UartSensorSource.exactThousandth d sample deliveries =
      overCan UartSensorSource.exactThousandth sample deliveries ∧
    overCan UartSensorSource.exactThousandth sample deliveries =
      deliveries.foldl (fun sample delivery => applyMeasurement sample
        ⟨delivery.kind, .finite (delivery.milliValue.toInt / 1000)⟩) sample := by
  have can := overCan_measurements UartSensorSource.exactThousandth sample deliveries
  have uart := overUart_measurements UartSensorSource.exactThousandth start sample deliveries
  constructor
  · rw [uart, can]
  · rw [can, List.foldl_map]
    rfl

/- A negative temperature, sent with different trimmings. -/
theorem buses_agree_negative :
    let sent : Delivery :=
      { kind := .temperature, milliValue := -12500, sequence := 7, length := 6,
        trailing := #v[1, 2, 3, 4], measured := by decide, long := by decide, short := by decide }
    overUart UartSensorSource.exactThousandth {} {} [sent] =
      overCan UartSensorSource.exactThousandth {} [sent] :=
  (buses_agree {} rfl {} _).1

end EdgeSentinel

import EdgeSentinel.Library.BigEndian
import EdgeSentinel.Protocols.Measurement

/-! The UART frame on the wire: twelve bytes, of which the last two are a CRC
over the first ten. -/
namespace EdgeSentinel

def kUartMagicFirst : UInt8 := 0xAA
def kUartMagicSecond : UInt8 := 0x55
def kUartProtocolVersion : UInt8 := 0x01
def kUartFrameSize : Nat := 12

structure UartFrame where
  kind : MeasurementKind := .temperature
  sequence : UInt16 := 0
  milliValue : Int32 := 0
  deriving DecidableEq, Repr

/- One round of the inner loop. -/
def crcBit (crc : UInt32) : UInt32 :=
  (if crc &&& 0x8000 ≠ 0 then (crc <<< 1) ^^^ 0x1021 else crc <<< 1) &&& 0xFFFF

def crcByte (crc : UInt32) (byte : UInt8) : UInt32 :=
  crcBit^[8] (crc ^^^ (byte.toUInt32 <<< 8))

def crc16Ccitt (bytes : List UInt8) : UInt16 := (bytes.foldl crcByte 0xFFFF).toUInt16

/- The ten bytes that the CRC covers. -/
def encodeCovered (frame : UartFrame) : List UInt8 :=
  [kUartMagicFirst, kUartMagicSecond, kUartProtocolVersion, frame.kind.code] ++
    BigEndian.bytes16 frame.sequence ++ BigEndian.bytes32 frame.milliValue.toUInt32

def encodeUartFrame (frame : UartFrame) : List UInt8 :=
  encodeCovered frame ++ BigEndian.bytes16 (crc16Ccitt (encodeCovered frame))

@[simp] theorem encodeCovered_length (frame : UartFrame) : (encodeCovered frame).length = 10 := rfl

@[simp] theorem encodeUartFrame_length (frame : UartFrame) :
    (encodeUartFrame frame).length = 12 := rfl

end EdgeSentinel

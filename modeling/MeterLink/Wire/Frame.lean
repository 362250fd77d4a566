import MeterLink.Bytes.Crc
import MeterLink.Wire.DataField

/-!
# Frames

A frame is a delimiter, a length byte, the addresses of both ends, a control byte, a data field
and a checksum. The length counts every byte after the delimiter. A reader looks at the delimiter
and the length first, and ignores what follows the frame.
-/

namespace MeterLink

/-- One end of a frame. -/
structure DeviceAddress where
  deviceType : UInt8
  address : BitVec 24
deriving DecidableEq, Repr

namespace DeviceAddress

def addressBytes (a : DeviceAddress) : Bytes := bigEndian 3 a.address.toNat

def bytes (a : DeviceAddress) : Bytes := a.deviceType :: a.addressBytes

def ofBytes (deviceType b₀ b₁ b₂ : UInt8) : DeviceAddress :=
  ⟨deviceType, BitVec.ofNat 24 (ofBigEndian [b₀, b₁, b₂])⟩

def text (a : DeviceAddress) : String :=
  String.ofList (Hex.ofByte a.deviceType) ++ ":" ++ Hex.encode a.addressBytes

end DeviceAddress

/-- How a meter acknowledges a request. -/
inductive Acknowledgement where
  | ok
  | badChecksum
  | badFormat
  | badLength
  | payloadTooLong
  | unknownObject
  | notAuthorised
  | badAddress
  | unrecognized (code : UInt8)
deriving DecidableEq, Repr

namespace Acknowledgement

def ofCode (code : UInt8) : Acknowledgement :=
  match code.toNat with
  | 0 => .ok
  | 1 => .badChecksum
  | 2 => .badFormat
  | 3 => .badLength
  | 4 => .payloadTooLong
  | 5 => .unknownObject
  | 6 => .notAuthorised
  | 7 => .badAddress
  | _ => .unrecognized code

/-- The name of the code, if it has one. -/
def name? : Acknowledgement → Option String
  | .ok => some "ok"
  | .badChecksum => some "fcs_error"
  | .badFormat => some "format_error"
  | .badLength => some "frame_len_incorrect"
  | .payloadTooLong => some "max_data_payload_exceeded"
  | .unknownObject => some "unknown_object_id"
  | .notAuthorised => some "security_not_granted"
  | .badAddress => some "frame_addr_incorrect"
  | .unrecognized _ => none

end Acknowledgement

/-- A frame. The checksum is the one it was read with; a frame that was built has none yet. -/
structure Frame where
  length : UInt8
  destination : DeviceAddress
  source : DeviceAddress
  control : UInt8
  data : DataField
  checksum : UInt16
deriving DecidableEq, Repr

namespace Frame

/-- The byte that every frame starts with. -/
def delimiter : UInt8 := 0x7e

/-- The part of the length that does not depend on the data field. -/
def overhead : Nat := 12

/-- The bytes before the data field. -/
def headerSize : Nat := 11

/-- The frame around a data field, if its length fits a byte. -/
def make (destination source : DeviceAddress) (control : UInt8) (data : DataField) :
    Except CodecFault Frame :=
  if overhead + data.size ≤ 255 then
    .ok ⟨UInt8.ofNat (overhead + data.size), destination, source, control, data, 0⟩
  else .error (.malformed (.tooLong (overhead + data.size)))

/-- The address to which requests go. -/
def meterAddress : DeviceAddress := ⟨0, 0⟩

/-- The address from which requests come. -/
def clientAddress : DeviceAddress := ⟨0, 0x21ae42⟩

/-- A request from the client to the meter. -/
def request (control : UInt8) (data : DataField) : Except CodecFault Frame :=
  make meterAddress clientAddress control data

/-- The bytes left for the data field by the declared length. -/
def dataLength (f : Frame) : Nat := f.length.toNat - overhead

/-- The sequence bit. -/
def sequenceBit (f : Frame) : UInt8 := f.control &&& 0x01

def acknowledgementCode (f : Frame) : UInt8 := f.control &&& 0x80

def acknowledgement (f : Frame) : Acknowledgement := .ofCode f.acknowledgementCode

/-- The size of the frame at the start of the buffer, if it is there in full. -/
def wholeSize (buf : Bytes) : Except CodecFault Nat :=
  match buf with
  | [] => .error (.truncated 1 0)
  | first :: rest =>
    if first ≠ delimiter then .error (.badDelimiter first)
    else if buf.length < headerSize then .error (.truncated headerSize buf.length)
    else
      let length := (rest.headD 0).toNat
      if length < overhead then .error (.malformed (.belowOverhead length))
      else if buf.length < length + 1 then .error (.truncated (length + 1) buf.length)
      else .ok (length + 1)

/-- Checks the checksum of a whole frame. -/
def verify (frame : Bytes) : Except CodecFault Unit :=
  if frame.length < 13 then .error (.truncated 13 frame.length)
  else
    let carried := UInt16.ofNat (ofBigEndian (frame.drop (frame.length - 2)))
    let computed := Crc.ofFrame frame
    if carried = computed then .ok () else .error (.checksum computed carried)

/-- Reads the parts of a whole frame. -/
def parse : Bytes → Except CodecFault Frame
  | _ :: length :: dt :: d₀ :: d₁ :: d₂ :: st :: s₀ :: s₁ :: s₂ :: control :: rest => do
    let data ← DataField.decode (rest.take (rest.length - 2))
    let checksum := UInt16.ofNat (ofBigEndian (rest.drop (rest.length - 2)))
    return ⟨length, .ofBytes dt d₀ d₁ d₂, .ofBytes st s₀ s₁ s₂, control, data, checksum⟩
  | frame => .error (.truncated headerSize frame.length)

/-- Reads the frame at the start of the buffer without a look at its checksum. -/
def decode (buf : Bytes) : Except CodecFault Frame := do
  let size ← wholeSize buf
  parse (buf.take size)

/-- Reads the frame at the start of the buffer; the checksum counts before the data field. -/
def decodeVerified (buf : Bytes) : Except CodecFault Frame := do
  let size ← wholeSize buf
  verify (buf.take size)
  parse (buf.take size)

/-- The wire form up to the checksum. -/
def unsealed (f : Frame) : Bytes :=
  delimiter :: f.length :: f.destination.bytes ++ f.source.bytes ++ f.control :: f.data.encode

/-- The wire form, with its own checksum. -/
def encode (f : Frame) : Except CodecFault Bytes :=
  if f.length.toNat = overhead + f.data.size then
    .ok (f.unsealed ++ bigEndian 2 (Crc.checksum (f.unsealed.drop 1)).toNat)
  else .error (.malformed (.wrongLength f.length.toNat (overhead + f.data.size)))

/-- The frame in one line, for people. -/
def text (f : Frame) : String :=
  s!"len={f.length.toNat} dst={f.destination.text} src={f.source.text} control=" ++
    String.ofList (Hex.ofByte f.control) ++
    s!" seq={f.sequenceBit.toNat} data=[{f.data.text}] crc=" ++ CodecFault.word f.checksum

/-- The value of a nonempty payload of an object, read in the shape of the object. -/
def record? (f : Frame) : Option (Except CodecFault Record) :=
  match f.data with
  | .object id _ payload => if payload.isEmpty then none else some (id.decodePayload payload)
  | .profile .. => none

end Frame

end MeterLink

import MeterLink.Bytes.Hex
import MeterLink.Record.Shape

/-!
# Faults of coded messages

Why bytes are no message, or a value has no bytes. Each cause is a constructor, and its wording
is fixed here. A fault of the frame itself is called corruption, since sending the request again
may cure it.
-/

namespace MeterLink

/-- What is wrong with the outer form of a frame. -/
inductive FrameFault where
  /-- The frame would need this length, which a byte cannot hold. -/
  | tooLong (length : Nat)
  /-- The declared length leaves no room for the fixed parts. -/
  | belowOverhead (length : Nat)
  /-- The declared length is not the one that the data field needs. -/
  | wrongLength (declared needed : Nat)
  /-- A profile log was asked for, and something else came. -/
  | notProfileLog
deriving DecidableEq, Repr

def FrameFault.message : FrameFault → String
  | .tooLong n => s!"frame length {n} exceeds 255"
  | .belowOverhead n => s!"frame length {n} below fixed overhead 12"
  | .wrongLength declared needed => s!"frame length {declared} but data field needs {needed}"
  | .notProfileLog => "expected profile log response, got Default field"

/-- Bytes that are complete and mean nothing. -/
inductive ValueFault where
  /-- A flag that is neither that of a read nor that of a write. -/
  | accessFlag (flag : UInt8)
  /-- The first byte of a text that is not ASCII. -/
  | notAscii (byte : UInt8) (offset : Nat)
  /-- Clock fields that name no time of the calendar. -/
  | notCalendarTime (year month date hour minute second : UInt8)
deriving DecidableEq, Repr

/-- The part of the message that the bytes belong to. -/
def ValueFault.place : ValueFault → String
  | .accessFlag _ => "read_write"
  | .notAscii _ _ => "ascii"
  | .notCalendarTime .. => "time"

def ValueFault.reason : ValueFault → String
  | .accessFlag flag => s!"flag {flag.toNat} is neither read (0) nor write (1)"
  | .notAscii byte offset =>
    "byte 0x" ++ String.ofList (Hex.ofByte byte) ++ " at offset " ++ toString offset
  | .notCalendarTime y mo d h mi s =>
    s!"{y.toNat}-{mo.toNat}-{d.toNat} {h.toNat}:{mi.toNat}:{s.toNat} is not a calendar time"

/-- Why a value does not fit a shape. -/
inductive Misfit where
  /-- The value is of another kind. -/
  | kind (got : String)
  | notAscii
  | textTooLong (length width : Nat)
  /-- The names of the fields are not those of the layout. -/
  | otherFields
  | fieldCount (fields values : Nat)
  | fieldOverflow (name : String) (value : UInt32) (bits : Nat)
  | valueCount (expected got : Nat)
  | byteCount (expected got : Nat)
  /-- The object's payload was read as a value of an unexpected kind. -/
  | readAs (name got : String)
  /-- The object's packed record lacks a field. -/
  | noField (name field : String)
deriving DecidableEq, Repr

def Misfit.reason : Misfit → String
  | .kind got => s!"got {got} value"
  | .notAscii => "text is not ASCII"
  | .textTooLong length width => s!"{length} chars exceed width {width}"
  | .otherFields => "fields do not match layout"
  | .fieldCount fields values => s!"{fields} fields, {values} values"
  | .fieldOverflow name value bits => s!"{name}={value.toNat} exceeds {bits} bits"
  | .valueCount expected got => s!"expected {expected} values, got {got}"
  | .byteCount expected got => s!"expected {expected} bytes, got {got}"
  | .readAs name got => s!"{name} decoded as {got}"
  | .noField name field => s!"{name} has no {field} field"

/-- Why a message could not be read or written. -/
inductive CodecFault where
  | badDelimiter (byte : UInt8)
  | malformed (fault : FrameFault)
  | unknownFormat (tag : UInt8)
  | truncated (needed available : Nat)
  | invalid (fault : ValueFault)
  | checksum (expected actual : UInt16)
  | mismatch (shape : Shape) (misfit : Misfit)
deriving DecidableEq, Repr

namespace CodecFault

/-- Four hexadecimal digits. -/
def word (w : UInt16) : String := Hex.encode (bigEndian 2 w.toNat)

def message : CodecFault → String
  | .badDelimiter byte => "bad frame delimiter 0x" ++ String.ofList (Hex.ofByte byte)
  | .malformed fault => "malformed frame: " ++ fault.message
  | .unknownFormat tag => s!"unknown data field format {tag.toNat}"
  | .truncated needed available => s!"truncated payload: needed {needed} bytes, {available} available"
  | .invalid fault => "invalid encoding in " ++ fault.place ++ ": " ++ fault.reason
  | .checksum expected actual =>
    "checksum mismatch: frame carries " ++ word actual ++ ", computed " ++ word expected
  | .mismatch shape misfit =>
    "value does not fit " ++ shape.name ++ " record: " ++ misfit.reason

/-- The frame was damaged on the way, so that another attempt may succeed. -/
def IsCorruption : CodecFault → Prop
  | .badDelimiter _ => True
  | .malformed _ => True
  | .checksum _ _ => True
  | _ => False

instance (e : CodecFault) : Decidable e.IsCorruption := by
  cases e <;> unfold IsCorruption <;> infer_instance

end CodecFault

end MeterLink

import MeterLink.Bytes

/-!
# Values of records

What a payload holds once its shape is known.
-/

namespace MeterLink

/-- The day of the week as the meter counts it, from Monday. -/
inductive Weekday where
  | monday
  | tuesday
  | wednesday
  | thursday
  | friday
  | saturday
  | sunday
  /-- A byte that names no day, kept so that it does not spoil the rest of a reading. -/
  | unknown (code : UInt8)
deriving DecidableEq, Repr

namespace Weekday

def ofCode (code : UInt8) : Weekday :=
  match code.toNat with
  | 0 => .monday
  | 1 => .tuesday
  | 2 => .wednesday
  | 3 => .thursday
  | 4 => .friday
  | 5 => .saturday
  | 6 => .sunday
  | _ => .unknown code

def code : Weekday → UInt8
  | .monday => 0
  | .tuesday => 1
  | .wednesday => 2
  | .thursday => 3
  | .friday => 4
  | .saturday => 5
  | .sunday => 6
  | .unknown code => code

/-- The name of the day, if the byte names one. -/
def name? : Weekday → Option String
  | .monday => some "monday"
  | .tuesday => some "tuesday"
  | .wednesday => some "wednesday"
  | .thursday => some "thursday"
  | .friday => some "friday"
  | .saturday => some "saturday"
  | .sunday => some "sunday"
  | .unknown _ => none

@[simp] theorem code_ofCode (c : UInt8) : (ofCode c).code = c := by
  unfold ofCode
  split <;> (rename_i h; first | rfl | exact UInt8.toNat_inj.1 (by rw [h]; rfl))

end Weekday

/-- A reading of the meter's clock. The year counts from 2000, and no field has been checked. -/
structure ClockReading where
  year : UInt8
  month : UInt8
  date : UInt8
  hour : UInt8
  minute : UInt8
  second : UInt8
  weekday : Weekday
deriving DecidableEq, Repr

/-- An entry of the log of payments. -/
structure Payment where
  /-- Eight bytes of no known meaning. -/
  reserved : Bytes
  /-- The time, in seconds of the meter. -/
  time : UInt32
  value : Int32
  length_reserved : reserved.length = 8
deriving DecidableEq, Repr

/-- The value of a record. -/
inductive Record where
  | u8 (v : UInt8)
  | u16 (v : UInt16)
  | u32 (v : UInt32)
  | i32 (v : Int32)
  | text (s : String)
  /-- Named fields in the order of their layout. -/
  | bits (fields : List (String × UInt32))
  | u16s (vs : List UInt16)
  | block (bs : Bytes)
  | clock (t : ClockReading)
  | payment (p : Payment)
  | empty
deriving DecidableEq, Repr

namespace Record

/-- What kind of value this is, in words. -/
def kind : Record → String
  | .u8 _ => "u8"
  | .u16 _ => "u16"
  | .u32 _ => "u32"
  | .i32 _ => "i32"
  | .text _ => "text"
  | .bits _ => "bits"
  | .u16s _ => "u16 array"
  | .block _ => "block"
  | .clock _ => "time"
  | .payment _ => "transaction details"
  | .empty => "empty"

/-- The value of an unsigned number of any width. -/
def unsigned? : Record → Option UInt32
  | .u8 v => some v.toUInt32
  | .u16 v => some v.toUInt32
  | .u32 v => some v
  | _ => none

/-- The value of any number. -/
def integer? : Record → Option Int
  | .i32 v => some v.toInt
  | r => r.unsigned?.map fun v => (v.toNat : Int)

def text? : Record → Option String
  | .text s => some s
  | _ => none

def bits? : Record → Option (List (String × UInt32))
  | .bits fields => some fields
  | _ => none

def block? : Record → Option Bytes
  | .block bs => some bs
  | _ => none

end Record

/-- The first field of a packed record with this name. -/
def bitField? (fields : List (String × UInt32)) (name : String) : Option UInt32 :=
  fields.lookup name

end MeterLink

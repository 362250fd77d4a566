import MeterLink.Calendar.Timestamp
import MeterLink.Json
import MeterLink.Meter.Identity
import MeterLink.Meter.Prepayment
import MeterLink.Meter.Tariff
import MeterLink.Meter.Telemetry

/-!
# Results as JSON

How the values of a meter are shown. Bytes are hexadecimal text, amounts are decimal text so that
no reader rounds them, instants are timestamps, and what is missing is null.
-/

namespace MeterLink

namespace Json

def ofBytes (bs : Bytes) : Json := .string (Hex.encode bs)

def ofAmount (a : Amount) : Json := .string a.text

def ofInstant (t : Instant) : Json := .string (Timestamp.withZulu t)

end Json

def Weekday.toJson (day : Weekday) : Json :=
  match day.name? with
  | some name => .string name
  | none => .ofMembers [("unknown", .ofNat day.code.toNat)]

def ClockReading.toJson (t : ClockReading) : Json :=
  .ofMembers [
    ("year", .ofNat t.year.toNat),
    ("month", .ofNat t.month.toNat),
    ("date", .ofNat t.date.toNat),
    ("hour", .ofNat t.hour.toNat),
    ("minute", .ofNat t.minute.toNat),
    ("second", .ofNat t.second.toNat),
    ("day_of_week", t.weekday.toJson)]

def Payment.toJson (p : Payment) : Json :=
  .ofMembers [
    ("reserved", .ofBytes p.reserved),
    ("payment_time", .ofNat p.time.toNat),
    ("payment_value", .ofInt p.value.toInt)]

namespace Record

/-- The fields of a packed record by name. -/
def fieldsJson (fields : List (String × UInt32)) : Json :=
  .ofMembers (fields.map fun f => (f.1, .ofNat f.2.toNat))

/-- The name under which a kind of record is shown. -/
def typeName : Record → String
  | .u8 _ => "u8"
  | .u16 _ => "u16"
  | .u32 _ => "u32"
  | .i32 _ => "i32"
  | .text _ => "text"
  | .bits _ => "bits"
  | .u16s _ => "u16_array"
  | .block _ => "block"
  | .clock _ => "time"
  | .payment _ => "transaction_details"
  | .empty => "empty"

/-- The value of a record, if its kind has one. -/
def valueJson? : Record → Option Json
  | .u8 v => some (.ofNat v.toNat)
  | .u16 v => some (.ofNat v.toNat)
  | .u32 v => some (.ofNat v.toNat)
  | .i32 v => some (.ofInt v.toInt)
  | .text s => some (.string s)
  | .bits fields => some (fieldsJson fields)
  | .u16s vs => some (.array (vs.map fun v => .ofNat v.toNat))
  | .block bs => some (.ofBytes bs)
  | .clock t => some t.toJson
  | .payment p => some p.toJson
  | .empty => none

def toJson (record : Record) : Json :=
  .ofMembers <| ("type", .string record.typeName) ::
    match record.valueJson? with
    | some value => [("value", value)]
    | none => []

end Record

/-- An entry of a profile log. -/
def profileJson (entry : UInt32 × Option ProfileBlock) : Json :=
  .ofMembers [
    ("timestamp", .ofNat entry.1.toNat),
    ("payload", .ofOption (fun block => .ofBytes block.bytes) entry.2)]

def DataField.toJson : DataField → Json
  | .object id access payload =>
    .ofMembers [
      ("format", .string "default"),
      ("object_id", .string id.text),
      ("read_write", .string (match access with | .read => "read" | .write => "write")),
      ("payload", .ofBytes payload)]
  | .profile log time block =>
    .ofMembers [
      ("format", .string "profile_log"),
      ("log", .string (match log with | .first => "First" | .second => "Second")),
      ("record", profileJson (time, block))]

def DeviceAddress.toJson (a : DeviceAddress) : Json :=
  .ofMembers [
    ("device_type", .ofNat a.deviceType.toNat),
    ("address", .ofBytes a.addressBytes)]

namespace Frame

def toJson (f : Frame) : Json :=
  .ofMembers [
    ("frame_length", .ofNat f.length.toNat),
    ("destination", f.destination.toJson),
    ("source", f.source.toJson),
    ("control", .ofNat f.control.toNat),
    ("data", f.data.toJson),
    ("crc16", .ofNat f.checksum.toNat)]

/-- The frame with the value of its payload, or why the payload has none. -/
def report (f : Frame) : Json :=
  .ofMembers <| ("frame", f.toJson) ::
    match f.record? with
    | none => []
    | some (.ok record) => [("record", record.toJson)]
    | some (.error fault) => [("record_error", .string fault.message)]

end Frame

/-- The value of an object under the object's name. -/
def recordReport (id : ObjectId) (record : Record) : Json :=
  .ofMembers [("object", .string id.name), ("record", record.toJson)]

/-- A known object in a listing. -/
def CatalogueEntry.toJson (e : CatalogueEntry) : Json :=
  .ofMembers [
    ("id", .string e.id.text),
    ("obis", .string e.id.triplet),
    ("name", .string e.name),
    ("shape", .string e.shape.text)]

namespace Meter

def Hardware.toJson : Hardware → Json
  | .singlePhase model =>
    .ofMembers [("phase", .string "single_phase"), ("model", .string model)]
  | .threePhase => .ofMembers [("phase", .string "three_phase")]

def SignalQuality.toJson (q : SignalQuality) : Json :=
  .ofMembers [
    ("csq", .ofNat q.csq.toNat),
    ("network_operator", .ofNat q.networkOperator.toNat)]

/-- Volts with one place. -/
def Voltage.toJson (v : Voltage) : Json := .number v.tenths.toNat 1

def PhaseVoltages.toJson (v : PhaseVoltages) : Json :=
  .ofMembers [
    ("l1", v.l1.toJson),
    ("l2", .ofOption Voltage.toJson v.l2),
    ("l3", .ofOption Voltage.toJson v.l3)]

/-- Thresholds by name, counted from one. -/
def thresholdsJson (values : List UInt16) : Json :=
  .ofMembers (values.zipIdx.map fun p => (s!"th{p.2 + 1}", .ofNat p.1.toNat))

def ActiveTariff.toJson (t : ActiveTariff) : Json :=
  .ofMembers [
    ("standing_charge", .ofAmount t.standingCharge),
    ("unit_rate_element_a", .ofAmount t.elementA),
    ("unit_rate_element_b", .ofAmount t.elementB),
    ("block_8_rate_1", .ofAmount t.flatRate),
    ("threshold_mask", Record.fieldsJson t.thresholdMask),
    ("threshold_values", thresholdsJson t.thresholds),
    ("block_rate", .ofNat t.blockRate.toNat),
    ("tou_rate", .ofNat t.touRate.toNat),
    ("element_b_tou_rate", .ofNat t.elementBTouRate.toNat),
    ("prepayment_emergency_credit", .ofAmount t.emergencyCredit),
    ("prepayment_ecredit_availability", .ofAmount t.emergencyAvailability),
    ("prepayment_debt_recovery_rate", .ofAmount t.debtRecoveryRate)]

def FutureTariff.toJson (t : FutureTariff) : Json :=
  .ofMembers [
    ("standing_charge", .ofAmount t.standingCharge),
    ("activation_datetime", .ofInstant t.activation),
    ("unit_rate_element_a", .ofAmount t.elementA),
    ("unit_rate_element_b", .ofAmount t.elementB),
    ("threshold_mask", Record.fieldsJson t.thresholdMask),
    ("threshold_values", thresholdsJson t.thresholds),
    ("prepayment_emergency_credit", .ofAmount t.emergencyCredit),
    ("prepayment_ecredit_availability", .ofAmount t.emergencyAvailability),
    ("prepayment_debt_recovery_rate", .ofAmount t.debtRecoveryRate)]

def pricesJson (table : PricingTable) : Json :=
  .array (table.map fun row => .array (row.map .ofAmount))

end Meter

end MeterLink

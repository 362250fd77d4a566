import MeterLink.Clock
import MeterLink.Meter.Reading

/-!
# Tariffs

A meter holds an active tariff and a future one, which takes over at its time of activation. Only
the future tariff can be written, and only as a flat rate: thresholds and switching by the time
of day are turned off, and one unit rate goes to both elements. Everything is checked before the
first write, but the writes are single ones: when one fails, those before it stay.
-/

namespace MeterLink.Meter

/-- The prices of a tariff by block and rate, both of which count to eight. -/
abbrev PricingTable := List (List Amount)

/-- The active tariff. -/
structure ActiveTariff where
  standingCharge : Amount
  elementA : Amount
  elementB : Amount
  /-- The price of the last block and the first rate, where a flat tariff has its unit rate. -/
  flatRate : Amount
  thresholdMask : List (String × UInt32)
  thresholds : List UInt16
  blockRate : UInt8
  touRate : UInt8
  elementBTouRate : UInt8
  emergencyCredit : Amount
  emergencyAvailability : Amount
  debtRecoveryRate : Amount
deriving DecidableEq, Repr

/-- The tariff that takes over at its time of activation. -/
structure FutureTariff where
  standingCharge : Amount
  activation : Instant
  elementA : Amount
  elementB : Amount
  thresholdMask : List (String × UInt32)
  thresholds : List UInt16
  emergencyCredit : Amount
  emergencyAvailability : Amount
  debtRecoveryRate : Amount
deriving DecidableEq, Repr

/-- A future tariff with one unit rate for both elements. -/
structure FlatTariff where
  activation : Instant
  standingCharge : Amount
  unitRate : Amount
  emergencyCredit : Amount
  emergencyAvailability : Amount
  debtRecoveryRate : Amount
deriving DecidableEq, Repr

/-- Thresholds between blocks. -/
def thresholdCount : Nat := 7

/-- The mask and the values of the thresholds. -/
def readThresholds (maskName valuesName : String) :
    ClientM (List (String × UInt32) × List UInt16) := do
  let mask ← readNamed Record.bits? maskName
  let values ← readNamed (fun | .u16s vs => some vs | _ => none) valuesName
  return (mask, values.take thresholdCount)

def activeTariff : ClientM ActiveTariff := do
  let standingCharge ← readAmount "tariff_active_standing_charge"
  let (thresholdMask, thresholds) ←
    readThresholds "tariff_active_threshold_mask" "tariff_active_threshold_values"
  let flatRate ← readAmount "tariff_active_block_8_rate_1"
  let elementA ← readAmount "tariff_active_price"
  let blockRate ← readUnsigned "tariff_active_block_rate_current"
  let touRate ← readUnsigned "tariff_active_tou_rate_current"
  let elementB ← readAmount "tariff_active_element_b_price"
  let elementBTouRate ← readUnsigned "tariff_active_element_b_tou_rate_current"
  let emergencyCredit ← readAmount "tariff_active_prepayment_emergency_credit"
  let emergencyAvailability ← readAmount "tariff_active_prepayment_ecredit_availability"
  let debtRecoveryRate ← readAmount "tariff_active_prepayment_debt_recovery_rate"
  return {
    standingCharge, elementA, elementB, flatRate, thresholdMask, thresholds
    blockRate := blockRate.toUInt8
    touRate := touRate.toUInt8
    elementBTouRate := elementBTouRate.toUInt8
    emergencyCredit, emergencyAvailability, debtRecoveryRate }

def futureTariff : ClientM FutureTariff := do
  let standingCharge ← readAmount "tariff_future_standing_charge"
  let activation ← readUnsigned "tariff_future_activation_datetime"
  let (thresholdMask, thresholds) ←
    readThresholds "tariff_future_threshold_mask" "tariff_future_threshold_values"
  let elementA ← readAmount "tariff_future_block_8_rate_1"
  let elementB ← readAmount "tariff_future_element_b_tou_rate_1"
  let emergencyCredit ← readAmount "tariff_future_prepayment_emergency_credit"
  let emergencyAvailability ← readAmount "tariff_future_prepayment_ecredit_availability"
  let debtRecoveryRate ← readAmount "tariff_future_prepayment_debt_recovery_rate"
  return {
    standingCharge
    activation := .ofMeterSeconds activation
    elementA, elementB, thresholdMask, thresholds
    emergencyCredit, emergencyAvailability, debtRecoveryRate }

/-- The units of an amount as an unsigned field of the meter. -/
def unsignedField (a : Amount) : Except Failure UInt32 :=
  match a.unsigned? with
  | some v => .ok v
  | none => .error (.argument (.notUnsigned a))

/-- The units of an amount as a signed field of the meter. -/
def signedField (a : Amount) : Except Failure Int32 :=
  match a.signed? with
  | some v => .ok v
  | none => .error (.argument (.notSigned a))

/-- A rate, which is at most one. -/
def checkedRate (a : Amount) : Except Failure Amount :=
  if a ≤ .one then .ok a else .error (.argument (.rateAboveOne a))

/-- The four bytes of a field. -/
def fieldBytes (v : UInt32) : Bytes := littleEndian 4 v.toNat

/-- The writes that program a flat tariff, in order, once its values have been checked. -/
def FlatTariff.writes (t : FlatTariff) : Except Failure (List (String × Bytes)) := do
  let _ ← checkedRate t.unitRate
  let unitRate ← unsignedField t.unitRate
  let emergencyCredit ← unsignedField t.emergencyCredit
  let emergencyAvailability ← unsignedField t.emergencyAvailability
  let debtRecoveryRate ← unsignedField t.debtRecoveryRate
  let standingCharge ← unsignedField t.standingCharge
  let activation ← t.activation.toMeterSeconds
  return [
    ("tariff_future_threshold_mask", [0]),
    ("tariff_future_threshold_values", List.replicate (2 * thresholdCount) 0),
    ("tariff_future_tou_flag", [0]),
    ("tariff_future_block_8_rate_1", fieldBytes unitRate),
    ("tariff_future_element_b_tou_rate_1", fieldBytes unitRate),
    ("tariff_future_prepayment_emergency_credit", fieldBytes emergencyCredit),
    ("tariff_future_prepayment_ecredit_availability", fieldBytes emergencyAvailability),
    ("tariff_future_prepayment_debt_recovery_rate", fieldBytes debtRecoveryRate),
    ("tariff_future_gas", fieldBytes 0),
    ("tariff_future_standing_charge", fieldBytes standingCharge),
    ("tariff_future_activation_datetime", fieldBytes activation)]

/-- Programs a flat tariff as the future one. -/
def writeFlatTariff (t : FlatTariff) : ClientM Unit := do
  let writes ← t.writes
  writes.forM fun (name, payload) => writeNamed name payload

/-- The object that holds the price of a block and a rate. -/
def priceObject (active : Bool) (block rate : Nat) : Except Failure ObjectId :=
  match ObjectId.blockRate? active block rate with
  | some id => .ok id
  | none => .error (.argument (.noPrice block rate))

def readPrice (active : Bool) (block rate : Nat) : ClientM Amount := do
  let id ← priceObject active block rate
  readView amount? id

/-- All prices of the active or the future tariff, read block by block. -/
def pricingTable (active : Bool) : ClientM PricingTable :=
  (List.range' 1 8).mapM fun block => (List.range' 1 8).mapM (readPrice active block)

/-- The two elements of a meter that have switches by the time of day. -/
inductive Element where
  /-- The first element, or the only one. -/
  | a
  | b
deriving DecidableEq, Repr

namespace Element

def text : Element → String
  | .a => "a"
  | .b => "b"

/-- The element with this name; the case of ASCII letters does not count. -/
def parse (s : String) : Except Failure Element :=
  let name := s.map Char.toLower
  if name = "a" ∨ name = "single" then .ok .a
  else if name = "b" then .ok .b
  else .error (.argument (.notElement name))

/-- The object that holds the switches of the element. -/
def switchObject : Element → String
  | .a => "tariff_time_switch_element_a_or_single"
  | .b => "tariff_time_switch_element_b"

end Element

/-- The bytes of the switches of an element. -/
def timeSwitches (element : Element) : ClientM Bytes :=
  readBlock element.switchObject

/-- Turns all switches of an element off. -/
def clearTimeSwitches (element : Element) : ClientM Unit :=
  writeNamed element.switchObject (List.replicate 80 0)

end MeterLink.Meter

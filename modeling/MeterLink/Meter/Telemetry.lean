import MeterLink.Clock
import MeterLink.Meter.Reading

/-!
# What a meter measures

Its clock, the signal of its modem, the voltages of its phases and the entries of its profile
logs.
-/

namespace MeterLink.Meter

def clockTime : ClientM Instant := do
  let reading ← readNamed (fun | .clock t => some t | _ => none) "time"
  reading.toInstant

/-- Sets the clock; parts of a second are dropped. -/
def setClock (t : Instant) : ClientM Unit := do
  let reading ← ClockReading.ofInstant t
  let id ← object "time"
  writeRecord id (.clock reading)

/-- The signal of the modem. -/
structure SignalQuality where
  csq : UInt8
  networkOperator : UInt8
deriving DecidableEq, Repr

/-- A field of the object's packed record. -/
def signalField (id : ObjectId) (fields : List (String × UInt32)) (name : String) :
    Except Failure UInt8 :=
  match bitField? fields name with
  | some v => .ok v.toUInt8
  | none => .error (.codec (.mismatch id.shape (.noField id.name name)))

def signalQuality : ClientM SignalQuality := do
  let id ← object "csq_net_op"
  let fields ← readView Record.bits? id
  let csq ← signalField id fields "csq"
  let networkOperator ← signalField id fields "network_operator"
  return { csq, networkOperator }

/-- A voltage, in the tenths of a volt that meters count. -/
structure Voltage where
  tenths : UInt32
deriving DecidableEq, Repr

/-- The voltages of three phases. A meter may cut short its answers on the last two. -/
structure PhaseVoltages where
  l1 : Voltage
  l2 : Option Voltage
  l3 : Option Voltage
deriving DecidableEq, Repr

def readVoltage (name : String) : ClientM Voltage := do
  return ⟨← readUnsigned name⟩

/-- The voltage of a phase, unless the answer is cut short. -/
def readVoltage? (name : String) : ClientM (Option Voltage) :=
  tryCatch (do return some (← readVoltage name)) fun e =>
    if e.IsTruncation then return none else throw e

def voltage : ClientM Voltage :=
  readVoltage "instantaneous_voltage"

def phaseVoltages : ClientM PhaseVoltages := do
  let l1 ← readVoltage "three_phase_instantaneous_voltage_l1"
  let l2 ← readVoltage? "three_phase_instantaneous_voltage_l2"
  let l3 ← readVoltage? "three_phase_instantaneous_voltage_l3"
  return { l1, l2, l3 }

/-- The entry of a profile log at an instant. -/
def profileEntry (log : ProfileLog) (t : Instant) : ClientM (UInt32 × Option ProfileBlock) := do
  let time ← t.toMeterSeconds
  readProfile log time

end MeterLink.Meter

import MeterLink.Settings
import MeterLink.Toml.Statement

/-!
# The settings file

The file has a section for each part of the settings. A section is a table, or the list of its
settings in their order; what is not set has its default, and what is not known is ignored. The
writer leaves out what has no value.
-/

namespace MeterLink.Settings

/-- The settings of a section by name, given their order. -/
def fields? (order : List String) : Toml → Option (List (String × Toml))
  | .table entries => some entries
  | .array items => some (order.zip items)
  | .datetime _ => some []
  | _ => none

/-- A setting in a section, or its default. -/
def setting {α : Type} (fields : List (String × Toml)) (name : String) (read : Toml → Option α)
    (default : α) : Except String α :=
  match fields.lookup name with
  | none => .ok default
  | some v =>
    match read v with
    | some a => .ok a
    | none => .error s!"unexpected value of {name}"

def text? : Toml → Option String
  | .string s => some s
  | _ => none

def switch? : Toml → Option Bool
  | .boolean b => some b
  | _ => none

/-- A whole number up to a limit. -/
def number? (limit : Nat) : Toml → Option Nat
  | .integer n => if 0 ≤ n ∧ n ≤ limit then some n.toNat else none
  | _ => none

def word? (v : Toml) : Option UInt64 :=
  (number? 0xffffffffffffffff v).map UInt64.ofNat

def sequenceNamed? (name : String) : Option SequenceMode :=
  if name = "static" then some .fixed
  else if name = "alternating" then some .alternating
  else none

/-- A mode by its name, which may also be the only key of a table without a value. -/
def sequence? : Toml → Option SequenceMode
  | .string name => sequenceNamed? name
  | .table [(name, .table [])] => sequenceNamed? name
  | .table [(name, .array [])] => sequenceNamed? name
  | _ => none

def meterNames : List String := ["host", "port"]

def transportNames : List String :=
  ["connect_timeout_secs", "io_timeout_secs", "max_attempts", "read_buffer_size",
    "min_request_interval_ms", "verify_checksum", "sequence", "lock_timeout_secs", "deadline_secs"]

def loggingNames : List String := ["level"]

def readMeter (fields : List (String × Toml)) : Except String MeterSettings := do
  let d : MeterSettings := {}
  return {
    host := ← setting fields "host" (fun v => (text? v).map some) d.host
    port := ← setting fields "port" (fun v => (number? 0xffff v).map UInt16.ofNat) d.port }

def readTransport (fields : List (String × Toml)) : Except String TransportSettings := do
  let d : TransportSettings := {}
  return {
    connectTimeout := ← setting fields "connect_timeout_secs" word? d.connectTimeout
    ioTimeout := ← setting fields "io_timeout_secs" word? d.ioTimeout
    maxAttempts := ← setting fields "max_attempts"
      (fun v => (number? 0xffffffff v).map UInt32.ofNat) d.maxAttempts
    bufferSize := ← setting fields "read_buffer_size" word? d.bufferSize
    minInterval := ← setting fields "min_request_interval_ms" word? d.minInterval
    verifyChecksum := ← setting fields "verify_checksum" switch? d.verifyChecksum
    sequence := ← setting fields "sequence" sequence? d.sequence
    lockTimeout := ← setting fields "lock_timeout_secs" word? d.lockTimeout
    deadline := ← setting fields "deadline_secs" (fun v => (word? v).map some) d.deadline }

def readLogging (fields : List (String × Toml)) : Except String LoggingSettings := do
  let d : LoggingSettings := {}
  return { level := ← setting fields "level" text? d.level }

/-- A section with its reader, or its default. -/
def readSection {α : Type} (sections : List (String × Toml)) (name : String) (order : List String)
    (read : List (String × Toml) → Except String α) (default : α) : Except String α :=
  match sections.lookup name with
  | none => .ok default
  | some v =>
    match fields? order v with
    | some fields => read fields
    | none => .error s!"unexpected value of {name}"

/-- Reads the text of a settings file. -/
def ofFile (text : String) : Except String Settings :=
  match Toml.parse? text with
  | some (.table sections) => do
    let d : Settings := {}
    return {
      meter := ← readSection sections "meter" meterNames readMeter d.meter
      transport := ← readSection sections "transport" transportNames readTransport d.transport
      logging := ← readSection sections "logging" loggingNames readLogging d.logging }
  | _ => .error "the text is not TOML"

/-- The line of a setting. -/
def line (name value : String) : String := name ++ " = " ++ value ++ "\n"

/-- The line of a number, if the file can hold it. -/
def numberLine (name : String) (n : Nat) : Except SettingsFault String :=
  if Toml.FitsInteger n then .ok (line name (toString n))
  else .error (.notWritable s!"{name} is too large")

def switchText (b : Bool) : String := if b then "true" else "false"

def sequenceName : SequenceMode → String
  | .fixed => "static"
  | .alternating => "alternating"

/-- The text of a settings file that holds these settings. -/
def toFile (s : Settings) : Except SettingsFault String := do
  let t := s.transport
  let port ← numberLine "port" s.meter.port.toNat
  let connectTimeout ← numberLine "connect_timeout_secs" t.connectTimeout.toNat
  let ioTimeout ← numberLine "io_timeout_secs" t.ioTimeout.toNat
  let maxAttempts ← numberLine "max_attempts" t.maxAttempts.toNat
  let bufferSize ← numberLine "read_buffer_size" t.bufferSize.toNat
  let minInterval ← numberLine "min_request_interval_ms" t.minInterval.toNat
  let lockTimeout ← numberLine "lock_timeout_secs" t.lockTimeout.toNat
  let deadline ← match t.deadline with
    | some seconds => numberLine "deadline_secs" seconds.toNat
    | none => pure ""
  let host := match s.meter.host with
    | some host => line "host" (Toml.quote host)
    | none => ""
  return "[meter]\n" ++ host ++ port ++
    "\n[transport]\n" ++ connectTimeout ++ ioTimeout ++ maxAttempts ++ bufferSize ++
      minInterval ++ line "verify_checksum" (switchText t.verifyChecksum) ++
      line "sequence" (Toml.quote (sequenceName t.sequence)) ++ lockTimeout ++ deadline ++
    "\n[logging]\n" ++ line "level" (Toml.quote s.logging.level)

end MeterLink.Settings

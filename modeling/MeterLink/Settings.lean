import MeterLink.Client.Session

/-!
# Settings

Which meter a client talks to, how it does so and what it logs. Every setting has a default but
the host. Settings with a zero where the client cannot run with one are refused.
-/

namespace MeterLink

/-- Which meter to talk to. -/
structure MeterSettings where
  host : Option String := none
  port : UInt16 := 8080
deriving DecidableEq, Repr

/-- How to talk to it. Times are in seconds where nothing else is said. -/
structure TransportSettings where
  connectTimeout : UInt64 := 10
  /-- For sending and for receiving. -/
  ioTimeout : UInt64 := 10
  maxAttempts : UInt32 := 3
  /-- The most bytes that an answer may have. -/
  bufferSize : UInt64 := 128
  /-- The least time between two requests, in milliseconds. -/
  minInterval : UInt64 := 2000
  verifyChecksum : Bool := true
  sequence : SequenceMode := .fixed
  /-- How long a caller waits while another one holds the meter. -/
  lockTimeout : UInt64 := 60
  deadline : Option UInt64 := none
deriving DecidableEq, Repr

/-- What is logged. -/
structure LoggingSettings where
  level : String := "info"
deriving DecidableEq, Repr

structure Settings where
  meter : MeterSettings := {}
  transport : TransportSettings := {}
  logging : LoggingSettings := {}
deriving DecidableEq, Repr

namespace Settings

/-- The client can run with the settings. -/
def Usable (s : Settings) : Prop :=
  s.transport.maxAttempts ≠ 0 ∧ s.transport.bufferSize ≠ 0 ∧ s.transport.connectTimeout ≠ 0 ∧
    s.transport.ioTimeout ≠ 0 ∧ s.meter.port ≠ 0

instance (s : Settings) : Decidable s.Usable := by
  unfold Usable; infer_instance

/-- Refuses settings that the client cannot run with, with the first of their zeros. -/
def check (s : Settings) : Except SettingsFault Unit :=
  if s.transport.maxAttempts = 0 then .error (.zero "transport.max_attempts")
  else if s.transport.bufferSize = 0 then .error (.zero "transport.read_buffer_size")
  else if s.transport.connectTimeout = 0 then .error (.zero "transport.connect_timeout_secs")
  else if s.transport.ioTimeout = 0 then .error (.zero "transport.io_timeout_secs")
  else if s.meter.port = 0 then .error (.zero "meter.port")
  else .ok ()

theorem check_eq_ok_iff (s : Settings) : s.check = .ok () ↔ s.Usable := by
  unfold check Usable
  grind

/-- The host, which commands for a meter need. -/
def host (s : Settings) : Except SettingsFault String :=
  match s.meter.host with
  | some host => .ok host
  | none => .error (.missing "meter.host")

/-- How transactions are carried out. -/
def transactions (s : Settings) : TransactionSettings where
  maxAttempts := s.transport.maxAttempts.toNat
  minInterval := s.transport.minInterval.toNat
  verifyChecksum := s.transport.verifyChecksum
  sequence := s.transport.sequence
  deadline := s.transport.deadline.map fun seconds => nanosPerSecond * seconds.toNat

end Settings

/-- The name of a meter in messages. -/
def endpoint (host : String) (port : UInt16) : String :=
  s!"{host}:{port.toNat}"

/-- What is logged when a person asks so many times for more. -/
def logLevel (configured : String) (verbosity : Nat) : String :=
  match verbosity with
  | 0 => configured
  | 1 => "debug"
  | _ => "trace"

end MeterLink

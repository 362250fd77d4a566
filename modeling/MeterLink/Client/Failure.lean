import MeterLink.Amount
import MeterLink.Calendar.Timestamp
import MeterLink.Wire.Fault

/-!
# Failures of the client

Why a call did not give its result: the meter's answer meant nothing, the meter could not be
reached, the caller asked for something impossible, or the settings are wrong. Each cause is a
constructor, and its wording is fixed here.
-/

namespace MeterLink

/-- The part of an exchange in which a socket failed. -/
inductive Phase where
  | connect
  | send
  | receive
deriving DecidableEq, Repr

def Phase.text : Phase → String
  | .connect => "connect"
  | .send => "send"
  | .receive => "receive"

/-- What a socket says of its failure, as far as callers branch on it. -/
inductive SocketCause where
  | timedOut
  | wouldBlock
  | other
deriving DecidableEq, Repr

/-- A failure of a socket and its wording. -/
structure SocketFault where
  cause : SocketCause
  message : String
deriving DecidableEq, Repr

/-- The peer was silent for too long. -/
def SocketFault.IsTimeout (f : SocketFault) : Prop :=
  f.cause = .timedOut ∨ f.cause = .wouldBlock

instance (f : SocketFault) : Decidable f.IsTimeout := by
  unfold SocketFault.IsTimeout; infer_instance

/-- What is wrong with an argument of a call. -/
inductive ArgumentFault where
  | notUnsigned (amount : Amount)
  | notSigned (amount : Amount)
  | rateAboveOne (rate : Amount)
  /-- An instant that the seconds of the meter cannot count. -/
  | outsideMeterTime (t : Instant)
  | yearNotRepresentable (year : Int)
  | unknownObject (name : String)
  | noPrice (block rate : Nat)
  /-- The credit does not suffice for prepayment. -/
  | lowBalance (balance minimum : Amount)
  | badToken (token : String)
  | notElement (text : String)
  /-- A command that needs a meter was given none. -/
  | needsMeter
  /-- A command that works without a meter was sent to one. -/
  | needsNoMeter
  /-- The link itself refused the request. -/
  | refusedByLink (reason : String)
deriving DecidableEq, Repr

namespace ArgumentFault

def field : ArgumentFault → String
  | .notUnsigned _ => "amount"
  | .notSigned _ => "amount"
  | .rateAboveOne _ => "rate"
  | .outsideMeterTime _ => "timestamp"
  | .yearNotRepresentable _ => "time"
  | .unknownObject _ => "object"
  | .noPrice _ _ => "tariff"
  | .lowBalance _ _ => "prepay_enabled"
  | .badToken _ => "token"
  | .notElement _ => "element"
  | .needsMeter => "command"
  | .needsNoMeter => "command"
  | .refusedByLink _ => "transport"

def reason : ArgumentFault → String
  | .notUnsigned a => a.text ++ " does not fit an unsigned meter field"
  | .notSigned a => a.text ++ " does not fit a meter field"
  | .rateAboveOne a => a.text ++ " can't be greater than 1"
  | .outsideMeterTime t => Timestamp.withOffset t ++ " is outside the meter time range"
  | .yearNotRepresentable y => s!"year {y} not representable"
  | .unknownObject name => s!"'{name}' is not a known object"
  | .noPrice block rate => s!"block {block} rate {rate}"
  | .lowBalance balance minimum =>
    s!"balance {balance.text} too low to enable prepay mode (< {minimum.text}), " ++
      "add credit and retry"
  | .badToken token => s!"expected 20 ASCII characters, got '{token}'"
  | .notElement text => s!"'{text}' is not an element, use a or b"
  | .needsMeter => "command needs a meter"
  | .needsNoMeter => "offline command routed to a meter"
  | .refusedByLink reason => reason

end ArgumentFault

/-- What is wrong with the settings. -/
inductive SettingsFault where
  | unreadable (path message : String)
  | badFile (message : String)
  | notPort (name text : String)
  | notSeconds (name text : String)
  | zero (field : String)
  /-- A number that the file format cannot hold. -/
  | notWritable (message : String)
  | missing (field : String)
deriving DecidableEq, Repr

def SettingsFault.message : SettingsFault → String
  | .unreadable path message => s!"cannot read config {path}: {message}"
  | .badFile message => s!"invalid config toml: {message}"
  | .notPort name text => s!"invalid config {name}: '{text}' is not a port number"
  | .notSeconds name text => s!"invalid config {name}: '{text}' is not a number of seconds"
  | .zero field => s!"invalid config {field}: must be greater than zero"
  | .notWritable message => s!"invalid config toml: {message}"
  | .missing field => s!"missing configuration: {field}"

def nanosPerMilli : Nat := 1000000

def nanosPerSecond : Nat := 1000 * nanosPerMilli

/-- Why a call did not give its result. -/
inductive Failure where
  | codec (fault : CodecFault)
  /-- One operation on a socket failed; the exchange may be tried again. -/
  | transport (endpoint : String) (phase : Phase) (fault : SocketFault)
  /-- Every attempt failed, the last one in this way. -/
  | unreachable (endpoint : String) (attempts : Nat) (last : Failure)
  /-- The time allowed for a transaction was up, after so many nanoseconds. -/
  | deadline (endpoint : String) (elapsed : Nat)
  /-- Another caller held the meter for all the seconds that this one waited. -/
  | busy (endpoint : String) (waited : Nat)
  | argument (fault : ArgumentFault)
  | settings (fault : SettingsFault)
deriving DecidableEq, Repr

/-- What callers branch on. -/
inductive FailureKind where
  | argument
  | settings
  | connection
  | busy
  | protocol
deriving DecidableEq, Repr

namespace Failure

/-- Tenths of a second, rounded to the nearest. -/
def secondsText (nanoseconds : Nat) : String :=
  let tenths := (10 * nanoseconds + nanosPerSecond / 2) / nanosPerSecond
  s!"{tenths / 10}.{tenths % 10}"

def message : Failure → String
  | .codec fault => fault.message
  | .transport endpoint phase fault =>
    s!"{phase.text} failed for {endpoint}: {fault.message}"
  | .unreachable endpoint attempts last =>
    s!"meter {endpoint} unreachable after {attempts} attempts: {last.message}"
  | .deadline endpoint elapsed =>
    s!"transaction with {endpoint} exceeded deadline after {secondsText elapsed}s"
  | .busy endpoint waited => s!"meter {endpoint} busy, gave up after {waited}s"
  | .argument fault => s!"invalid {fault.field}: {fault.reason}"
  | .settings fault => fault.message

def kind : Failure → FailureKind
  | .codec _ => .protocol
  | .transport .. => .connection
  | .unreachable .. => .connection
  | .deadline .. => .connection
  | .busy .. => .busy
  | .argument _ => .argument
  | .settings _ => .settings

/-- The answer ended before the value did. -/
def IsTruncation : Failure → Prop
  | .codec (.truncated _ _) => True
  | _ => False

instance (e : Failure) : Decidable e.IsTruncation := by
  unfold IsTruncation; split <;> infer_instance

/-- The meter was silent for too long. -/
def IsTimeout : Failure → Prop
  | .transport _ _ fault => fault.IsTimeout
  | .unreachable _ _ last => last.IsTimeout
  | _ => False

instance decidableIsTimeout : (e : Failure) → Decidable e.IsTimeout
  | .transport _ _ fault => inferInstanceAs (Decidable fault.IsTimeout)
  | .unreachable _ _ last => decidableIsTimeout last
  | .codec _ => inferInstanceAs (Decidable False)
  | .deadline .. => inferInstanceAs (Decidable False)
  | .busy .. => inferInstanceAs (Decidable False)
  | .argument _ => inferInstanceAs (Decidable False)
  | .settings _ => inferInstanceAs (Decidable False)

/-- The messages of the causes behind the failure, nearest first. -/
def causes : Failure → List String
  | .codec fault => [fault.message]
  | .transport _ _ fault => [fault.message]
  | .unreachable _ _ last => last.message :: last.causes
  | .settings (.unreadable _ message) => [message]
  | _ => []

end Failure

end MeterLink

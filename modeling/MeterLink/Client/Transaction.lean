import MeterLink.Client.Session
import MeterLink.Wire.Frame

/-!
# Transactions

A transaction sends one request until an attempt succeeds or fails for good. A failure of the
link and a damaged answer are tried again, everything else ends the transaction; once the
attempts are used up, the last one decides what is reported.
-/

namespace MeterLink

/-- The frame of an answer, with or without a look at its checksum. -/
def TransactionSettings.readFrame (settings : TransactionSettings) (reply : Bytes) :
    Except CodecFault Frame :=
  if settings.verifyChecksum then Frame.decodeVerified reply else Frame.decode reply

/-- Attempts of a transaction, at least one. -/
def TransactionSettings.attempts (settings : TransactionSettings) : Nat :=
  max 1 settings.maxAttempts

/-- What came of one attempt. -/
inductive Attempt where
  | answered (frame : Frame)
  /-- Another attempt may succeed. -/
  | retryable (e : Failure)
  | final (e : Failure)

/-- The verdict on the outcome of an exchange. -/
def Attempt.ofOutcome (settings : TransactionSettings) : Except Failure Bytes → Attempt
  | .error (.transport endpoint phase fault) => .retryable (.transport endpoint phase fault)
  | .error e => .final e
  | .ok reply =>
    match settings.readFrame reply with
    | .ok frame => .answered frame
    | .error fault => if fault.IsCorruption then .retryable (.codec fault) else .final (.codec fault)

/-- The failure that is reported when no attempt is left. -/
def exhausted (line : Line) : Failure → Failure
  | .codec fault => .codec fault
  | e => .unreachable line.endpoint line.settings.attempts e

/-- Goes on within the time allowed from `started`. The clock is read only if that time is limited,
and once more for what is said when it is up. -/
def TransactionSettings.inTime {α : Type} (settings : TransactionSettings) (started : Nat)
    (late : Nat → Dialogue α) (go : Dialogue α) : Dialogue α :=
  match settings.deadline with
  | none => go
  | some limit =>
    .waitUntil 0 fun now =>
      if limit ≤ now - started then .waitUntil 0 fun now => late (now - started) else go

/-- Sends the request, and sends it again at most `retries` times, in a transaction that was started
at `started`. -/
def attemptAll (line : Line) (request : Bytes) (started : Nat) :
    (retries : Nat) → Session → Dialogue (Except Failure Frame × Session)
  | retries, s =>
    line.settings.inTime started
      (fun elapsed => .done (.error (.deadline line.endpoint elapsed), s.enter .failed)) <|
      .exchange request fun e => .waitUntil 0 fun now =>
        let s := { (s.enter .connecting).follow e.milestones with lastRequest := some now }
        match Attempt.ofOutcome line.settings e.outcome with
        | .answered frame => .done (.ok frame, s.enter .done)
        | .final e => .done (.error e, s.enter .failed)
        | .retryable e =>
          match retries with
          | 0 => .done (.error (exhausted line e), s.noteFailure.enter .failed)
          | retries + 1 => attemptAll line request started retries s.noteFailure

/-- Sends a data field and gives the frame of the answer. The sequence bit is used up even if the
field does not fit a frame. -/
def transact (data : DataField) : ClientM Frame := fun line s =>
  let (control, s) := s.nextControl line.settings.sequence
  match Frame.request control data >>= Frame.encode with
  | .error fault => .done (.error (.codec fault), s)
  | .ok request =>
    .waitUntil (s.earliest line.settings) fun started =>
      attemptAll line request started (line.settings.attempts - 1)
        { s with failedIn := none, transitions := [] }

/-- Sends the bytes of a data field, once they have been read as one, and gives the payload of
the answer. -/
def sendRaw (field : Bytes) : ClientM Bytes := do
  let data ← DataField.decode field
  let frame ← transact data
  return frame.data.payload

/-- The payload that the meter holds for an object. -/
def readPayload (id : ObjectId) : ClientM Bytes := do
  let frame ← transact (.readObject id)
  return frame.data.payload

/-- The value that the meter holds for an object. -/
def readRecord (id : ObjectId) : ClientM Record := do
  let payload ← readPayload id
  id.decodePayload payload

/-- Writes a payload to an object and gives the payload of the answer. -/
def writePayload (id : ObjectId) (payload : Bytes) : ClientM Bytes := do
  let frame ← transact (.writeObject id payload)
  return frame.data.payload

/-- Writes a value to an object in the object's shape. -/
def writeRecord (id : ObjectId) (value : Record) : ClientM Unit := do
  let payload ← id.encodePayload value
  let _ ← writePayload id payload

/-- The entry of a profile log at a time of the meter: the time that the answer carries, and the
block if it has one. -/
def readProfile (log : ProfileLog) (time : UInt32) : ClientM (UInt32 × Option ProfileBlock) := do
  let frame ← transact (.profile log time none)
  match frame.data with
  | .profile _ time block => return (time, block)
  | .object .. => throw (.codec (.malformed .notProfileLog))

end MeterLink

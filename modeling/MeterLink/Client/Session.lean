import MeterLink.Client.Dialogue

/-!
# Sessions

What a client keeps between its calls, and the calls as programs that use it. A call is given the
line it works on and the session so far; it talks to the meter, and leaves a result or a failure
and the session for the next call.
-/

namespace MeterLink

/-- The state of a transaction. -/
inductive TransactionState where
  | idle
  | connecting
  | connected
  | sending
  | awaitingResponse
  | done
  | failed
deriving DecidableEq, Repr

def Milestone.state : Milestone → TransactionState
  | .connected => .connected
  | .sending => .sending
  | .awaitingResponse => .awaitingResponse

/-- How the control bytes of successive requests are chosen. -/
inductive SequenceMode where
  | fixed
  /-- The lowest bit is set in every other request, beginning with the first. -/
  | alternating
deriving DecidableEq, Repr

/-- How transactions are carried out. -/
structure TransactionSettings where
  maxAttempts : Nat := 3
  /-- The least time between the end of a request and the next one, in milliseconds. -/
  minInterval : Nat := 2000
  verifyChecksum : Bool := true
  sequence : SequenceMode := .fixed
  /-- The time allowed for all attempts of a transaction, in nanoseconds. -/
  deadline : Option Nat := none
deriving DecidableEq, Repr

/-- The meter that a client talks to, and how. -/
structure Line where
  endpoint : String
  settings : TransactionSettings
deriving DecidableEq, Repr

/-- What a client keeps between its calls. -/
structure Session where
  /-- The lowest bit of the next control byte, where it alternates. -/
  sequenceBit : Bool := true
  state : TransactionState := .idle
  /-- The states that the last transaction entered, in order. -/
  transitions : List TransactionState := []
  /-- The state in which the last failed attempt of the last transaction was. -/
  failedIn : Option TransactionState := none
  /-- The time at which the last exchange ended. -/
  lastRequest : Option Nat := none
deriving DecidableEq, Repr

namespace Session

def enter (s : Session) (next : TransactionState) : Session :=
  { s with state := next, transitions := s.transitions ++ [next] }

/-- Enters the state of each milestone in turn. -/
def follow (s : Session) (milestones : List Milestone) : Session :=
  milestones.foldl (fun s m => s.enter m.state) s

/-- Notes that an attempt failed in the present state. -/
def noteFailure (s : Session) : Session :=
  { s with failedIn := some s.state }

/-- The control byte of the next request, which uses up a turn of the sequence bit. -/
def nextControl (mode : SequenceMode) (s : Session) : UInt8 × Session :=
  match mode with
  | .fixed => (5, s)
  | .alternating => (if s.sequenceBit then 5 else 4, { s with sequenceBit := !s.sequenceBit })

/-- The time before which the next request must not be sent. -/
def earliest (settings : TransactionSettings) (s : Session) : Nat :=
  match s.lastRequest with
  | none => 0
  | some t => t + nanosPerMilli * settings.minInterval

end Session

/-- A call of a client. -/
def ClientM (α : Type) : Type :=
  Line → Session → Dialogue (Except Failure α × Session)

namespace ClientM

variable {α β : Type}

def pure (a : α) : ClientM α :=
  fun _ s => .done (.ok a, s)

def bind (x : ClientM α) (f : α → ClientM β) : ClientM β :=
  fun line s => (x line s).andThen fun
    | (.ok a, s) => f a line s
    | (.error e, s) => .done (.error e, s)

def fail (e : Failure) : ClientM α :=
  fun _ s => .done (.error e, s)

def recover (x : ClientM α) (handle : Failure → ClientM α) : ClientM α :=
  fun line s => (x line s).andThen fun
    | (.ok a, s) => .done (.ok a, s)
    | (.error e, s) => handle e line s

instance : Monad ClientM where
  pure := ClientM.pure
  bind := ClientM.bind

instance : MonadExceptOf Failure ClientM where
  throw := fail
  tryCatch := recover

/-- A result that needs no dialogue. -/
def ofExcept : Except Failure α → ClientM α
  | .ok a => ClientM.pure a
  | .error e => fail e

instance : MonadLift (Except Failure) ClientM := ⟨ofExcept⟩

instance : MonadLift (Except CodecFault) ClientM := ⟨fun x => ofExcept (x.mapError .codec)⟩

/-- Runs a call against a peer. -/
def run (x : ClientM α) (peer : Dialogue.Peer) (line : Line) (s : Session) (w : Dialogue.Wire) :
    Except Failure α × Session × Dialogue.Wire :=
  let ((result, s), w) := (x line s).run peer w
  (result, s, w)

section Run

variable (peer : Dialogue.Peer) (line : Line) (s : Session) (w : Dialogue.Wire)

/-- A call after another is not made when that one fails. -/
theorem run_bind (x : ClientM α) (f : α → ClientM β) : (x >>= f).run peer line s w
    = match x.run peer line s w with
      | (.ok a, s, w) => (f a).run peer line s w
      | (.error e, s, w) => (.error e, s, w) := by
  have hbind : (x >>= f) line s = (x line s).andThen fun
      | (.ok a, s) => f a line s
      | (.error e, s) => .done (.error e, s) := rfl
  rw [run, run, hbind, Dialogue.run_andThen]
  rcases (x line s).run peer w with ⟨⟨e | a, s'⟩, w'⟩
  · rfl
  · rfl

/-- A continuation that does not talk leaves the session and the wire as they are. -/
theorem run_bind_silent (x : ClientM α) {f : α → ClientM β}
    (hf : ∀ a s w, ((f a).run peer line s w).2 = (s, w)) :
    ((x >>= f).run peer line s w).2 = (x.run peer line s w).2 := by
  rw [run_bind]
  rcases x.run peer line s w with ⟨e | a, s', w'⟩
  · rfl
  · exact hf a s' w'

theorem run_map (x : ClientM α) (f : α → β) : (x >>= fun a => Pure.pure (f a)).run peer line s w
    = ((x.run peer line s w).1.map f, (x.run peer line s w).2) := by
  rw [run_bind]
  rcases x.run peer line s w with ⟨e | a, s', w'⟩
  · rfl
  · rfl

theorem run_forM_cons (f : α → ClientM PUnit) (x : α) (xs : List α) :
    ((x :: xs).forM f).run peer line s w = match (f x).run peer line s w with
      | (.ok _, s, w) => (xs.forM f).run peer line s w
      | (.error e, s, w) => (.error e, s, w) := by
  have hcons : (x :: xs).forM f = f x >>= fun _ => xs.forM f := rfl
  rw [hcons, run_bind]
  rcases (f x).run peer line s w with ⟨_ | _, _, _⟩
  · rfl
  · rfl

theorem run_lift (x : Except Failure α) :
    (liftM x : ClientM α).run peer line s w = (x, s, w) := by
  cases x with
  | error e => rfl
  | ok a => rfl

theorem run_lift_codec (x : Except CodecFault α) :
    (liftM x : ClientM α).run peer line s w = (x.mapError .codec, s, w) := by
  cases x with
  | error e => rfl
  | ok a => rfl

end Run

end ClientM

end MeterLink

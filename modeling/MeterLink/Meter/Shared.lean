import MeterLink.Client.Session

/-!
# A meter shared between callers

A meter holds one conversation at a time, so callers take turns: each must be admitted before its
call runs, and gives up when it has waited too long. The holder's call is a tree that is advanced
one exchange or one wait at a time, in any order with the steps of other callers. A call may be
nested in the holder's; the lock is not re-entrant, so the nested one waits and is refused.
-/

namespace MeterLink

open Dialogue (Peer Wire)

/-- What is left of a call on a shared meter. -/
inductive Turn (α : Type) where
  | done (result : Except Failure α) (session : Session)
  | exchange (request : Bytes) (next : Exchange → Turn α)
  | waitUntil (time : Nat) (next : Nat → Turn α)
  /-- Calls the meter that is being held, and goes on with what that call is given. -/
  | nested (inner : Line → Session → Turn α) (next : Except Failure α → Turn α)

/-- A call on a shared meter. -/
def SharedCall (α : Type) : Type := Line → Session → Turn α

namespace Turn

variable {α : Type}

def ofDialogue : Dialogue (Except Failure α × Session) → Turn α
  | .done (result, session) => done result session
  | .exchange request next => exchange request fun e => ofDialogue (next e)
  | .waitUntil time next => waitUntil time fun now => ofDialogue (next now)

/-- The turn as a dialogue of its own: a nested call comes to a wait and the refusal. -/
def alone (patience : Nat) (busy : Failure) : Turn α → Dialogue (Except Failure α × Session)
  | done result session => .done (result, session)
  | exchange request next => .exchange request fun e => (next e).alone patience busy
  | waitUntil time next => .waitUntil time fun now => (next now).alone patience busy
  | nested _ next =>
    .waitUntil 0 fun now => .waitUntil (now + patience) fun _ =>
      (next (.error busy)).alone patience busy

/-- The next exchange or wait of a turn: what is left of it, the wire after it and the requests
that it sent. -/
def next? (peer : Peer) (patience : Nat) (busy : Failure) (w : Wire) :
    Turn α → Option (Turn α × Wire × List Bytes)
  | done _ _ => none
  | exchange request next =>
    let e := peer w.requests request
    some (next e, w.push request e, [request])
  | waitUntil time next =>
    let w := w.await peer time
    some (next w.clock, w, [])
  | nested _ next =>
    let asked := w.await peer 0
    some (next (.error busy), asked.await peer (asked.clock + patience), [])

@[simp]
theorem alone_ofDialogue (patience : Nat) (busy : Failure)
    (d : Dialogue (Except Failure α × Session)) : (ofDialogue d).alone patience busy = d := by
  induction d with
  | done out => rfl
  | exchange request next ih => simp only [ofDialogue, alone, ih]
  | waitUntil time next ih => simp only [ofDialogue, alone, ih]

end Turn

/-- What a caller is told that has waited too long. -/
def Line.busy (line : Line) (patience : Nat) : Failure :=
  .busy line.endpoint (patience / nanosPerSecond)

namespace SharedCall

variable {α : Type}

instance : Coe (ClientM α) (SharedCall α) where
  coe call := fun line s => .ofDialogue (call line s)

/-- The call as one that its caller makes directly on the client. -/
def alone (patience : Nat) (call : SharedCall α) : ClientM α :=
  fun line s => (call line s).alone patience (line.busy patience)

/-- A call of a client, in which no other is nested, is made as it is. -/
@[simp]
theorem alone_coe (patience : Nat) (call : ClientM α) :
    alone patience (call : SharedCall α) = call := by
  funext line s
  exact Turn.alone_ofDialogue patience _ (call line s)

end SharedCall

/-- The caller that was admitted, and what is left of its call. -/
structure Holder (α : Type) where
  caller : Nat
  rest : Turn α

/-- A meter with its client and the callers that share it. -/
structure SharedMeter (α : Type) where
  line : Line
  /-- How long a caller waits to be admitted, in nanoseconds. -/
  patience : Nat
  session : Session
  wire : Wire
  holder : Option (Holder α) := none
  /-- The callers whose exchanges have passed over the link, with their requests, oldest first. -/
  log : List (Nat × Bytes) := []
  /-- What the callers were given, in the order in which they returned. -/
  outcomes : List (Nat × Except Failure α) := []

/-- A step of one of the callers. -/
inductive CallerStep (α : Type) where
  /-- A caller is admitted with its call. -/
  | acquire (caller : Nat) (call : SharedCall α)
  /-- A caller has waited too long. -/
  | giveUp (caller : Nat)
  /-- The holder's next exchange or wait. -/
  | advance
  /-- The holder returns. -/
  | release

/-- The requests that a dialogue sends. -/
def Dialogue.sent (peer : Peer) (w : Wire) {β : Type} (d : Dialogue β) : List Bytes :=
  (d.run peer w).2.requests.drop w.requests.length

namespace SharedMeter

variable {α : Type}

/-- A meter that no one holds. -/
def idle (line : Line) (patience : Nat) : SharedMeter α :=
  { line, patience, session := {}, wire := .fresh }

/-- What is left of the holder's call, as a dialogue of its own. -/
def remaining (m : SharedMeter α) (rest : Turn α) : Dialogue (Except Failure α × Session) :=
  rest.alone m.patience (m.line.busy m.patience)

/-- The meter after a step, if the step can be taken: only a free meter admits a caller. A caller
may give up on a meter that has just become free, when its time was up before. -/
def step (peer : Peer) (m : SharedMeter α) : CallerStep α → Option (SharedMeter α)
  | .acquire caller call =>
    match m.holder with
    | none => some { m with holder := some ⟨caller, call m.line m.session⟩ }
    | some _ => none
  | .giveUp caller =>
    some { m with outcomes := m.outcomes ++ [(caller, .error (m.line.busy m.patience))] }
  | .advance =>
    match m.holder with
    | none => none
    | some ⟨caller, rest⟩ =>
      (rest.next? peer m.patience (m.line.busy m.patience) m.wire).map fun (rest, wire, sent) =>
        { m with
          holder := some ⟨caller, rest⟩
          wire
          log := m.log ++ sent.map fun request => (caller, request) }
  | .release =>
    match m.holder with
    | some ⟨caller, .done result session⟩ =>
      some { m with
        holder := none
        session
        outcomes := m.outcomes ++ [(caller, result)] }
    | _ => none

/-- The meter after steps, each of which can be taken. -/
def steps (peer : Peer) (m : SharedMeter α) : List (CallerStep α) → Option (SharedMeter α)
  | [] => some m
  | s :: rest => m.step peer s >>= fun m => m.steps peer rest

/-- What the holder has still to send. -/
def unsent (peer : Peer) (m : SharedMeter α) : List (Nat × Bytes) :=
  match m.holder with
  | none => []
  | some ⟨caller, rest⟩ =>
    ((m.remaining rest).sent peer m.wire).map fun request => (caller, request)

/-- Lets the holder go on until it has returned. -/
def finish (peer : Peer) (m : SharedMeter α) : SharedMeter α :=
  match m.holder with
  | none => m
  | some ⟨caller, rest⟩ =>
    let ((result, session), wire) := (m.remaining rest).run peer m.wire
    { m with
      holder := none
      session
      wire
      log := m.log ++ m.unsent peer
      outcomes := m.outcomes ++ [(caller, result)] }

end SharedMeter

end MeterLink

import MeterLink.Client.Failure

/-!
# Dialogues with a meter

A dialogue is a program whose only effects are exchanges with the far end and waits on a clock.
It is a tree, so it can be run against a peer that is a plain function, be performed on a socket,
or be advanced one exchange at a time. The clock goes on by itself: whoever waits for a time is
shown that time or a later one, and a wait for a time that has passed reads the clock.
-/

namespace MeterLink

/-- A point that an exchange passed. -/
inductive Milestone where
  | connected
  | sending
  | awaitingResponse
deriving DecidableEq, Repr

/-- What came of handing one request to the link. -/
structure Exchange where
  /-- The points it passed, in order. -/
  milestones : List Milestone
  outcome : Except Failure Bytes
  /-- How long it took, in nanoseconds. -/
  took : Nat

/-- A program that talks to a meter and ends with a result. -/
inductive Dialogue (α : Type) where
  | done (result : α)
  /-- Hands a request to the link and goes on with what came of it. -/
  | exchange (request : Bytes) (next : Exchange → Dialogue α)
  /-- Waits until the clock shows at least this many nanoseconds, and goes on with what it
  shows. -/
  | waitUntil (time : Nat) (next : Nat → Dialogue α)

namespace Dialogue

variable {α β γ : Type}

/-- Runs a second dialogue on the result of the first. -/
def andThen (f : α → Dialogue β) : Dialogue α → Dialogue β
  | done a => f a
  | exchange request next => exchange request fun e => (next e).andThen f
  | waitUntil time next => waitUntil time fun t => (next t).andThen f

instance : Monad Dialogue where
  pure := done
  bind d f := d.andThen f

theorem andThen_done (d : Dialogue α) : d.andThen done = d := by
  induction d with
  | done a => rfl
  | exchange request next ih => simp only [andThen, ih]
  | waitUntil time next ih => simp only [andThen, ih]

theorem andThen_assoc (f : α → Dialogue β) (g : β → Dialogue γ) (d : Dialogue α) :
    (d.andThen f).andThen g = d.andThen fun a => (f a).andThen g := by
  induction d with
  | done a => rfl
  | exchange request next ih => simp only [andThen, ih]
  | waitUntil time next ih => simp only [andThen, ih]

/-- What has passed over a link: each request with what came of it, oldest first, the time, and how
often the clock was read. -/
structure Wire where
  exchanges : List (Bytes × Exchange)
  clock : Nat
  readings : Nat

/-- A link on which nothing has happened yet. -/
def Wire.fresh : Wire := ⟨[], 0, 0⟩

def Wire.requests (w : Wire) : List Bytes := w.exchanges.map Prod.fst

/-- The wire after one more exchange. -/
def Wire.push (w : Wire) (request : Bytes) (e : Exchange) : Wire :=
  { w with exchanges := w.exchanges ++ [(request, e)], clock := w.clock + e.took }

/-- The far end and the course of time. -/
structure Peer where
  /-- What comes of a request, given the requests before it. -/
  answer : List Bytes → Bytes → Exchange
  /-- The time that goes by at each reading of the clock, besides waits and exchanges. -/
  delay : Nat → Nat

instance : CoeFun Peer fun _ => List Bytes → Bytes → Exchange where
  coe := Peer.answer

/-- A far end with which no time goes by unnoticed. -/
def Peer.prompt (answer : List Bytes → Bytes → Exchange) : Peer where
  answer
  delay := fun _ => 0

@[simp]
theorem Peer.answer_prompt (answer : List Bytes → Bytes → Exchange) :
    (Peer.prompt answer).answer = answer :=
  rfl

/-- The wire when the clock shows this time or a later one. -/
def Wire.await (peer : Peer) (time : Nat) (w : Wire) : Wire :=
  { w with clock := max time w.clock + peer.delay w.readings, readings := w.readings + 1 }

@[simp]
theorem Wire.exchanges_await (peer : Peer) (time : Nat) (w : Wire) :
    (w.await peer time).exchanges = w.exchanges :=
  rfl

/-- Runs a dialogue against a peer. -/
def run (peer : Peer) : Dialogue α → Wire → α × Wire
  | done a, w => (a, w)
  | exchange request next, w =>
    let e := peer w.requests request
    (next e).run peer (w.push request e)
  | waitUntil time next, w =>
    let w := w.await peer time
    (next w.clock).run peer w

theorem run_andThen (peer : Peer) (f : α → Dialogue β) (d : Dialogue α) (w : Wire) :
    (d.andThen f).run peer w = (f (d.run peer w).1).run peer (d.run peer w).2 := by
  induction d generalizing w with
  | done a => rfl
  | exchange request next ih => simp only [andThen, run, ih]
  | waitUntil time next ih => simp only [andThen, run, ih]

end Dialogue

end MeterLink

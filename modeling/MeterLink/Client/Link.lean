import MeterLink.Client.Dialogue

/-!
# Links to a meter

What an exchange comes to, by the event that ends it: the points it passes before it fails in a
phase, and the bytes that a read delivers. A read takes what is there, and no more than its
buffer holds.
-/

namespace MeterLink

/-- The points that an exchange has passed when it fails in this phase. -/
def Phase.milestones : Phase → List Milestone
  | .connect => []
  | .send => [.connected, .sending]
  | .receive => [.connected, .sending, .awaitingResponse]

namespace Exchange

/-- The exchange ran through and brought these bytes. -/
def answered (reply : Bytes) : Exchange :=
  ⟨Phase.receive.milestones, .ok reply, 0⟩

/-- A socket failed in this phase. -/
def failed (endpoint : String) (phase : Phase) (fault : SocketFault) : Exchange :=
  ⟨phase.milestones, .error (.transport endpoint phase fault), 0⟩

/-- The link refused the request after all. -/
def refused (reason : String) : Exchange :=
  ⟨Phase.receive.milestones, .error (.argument (.refusedByLink reason)), 0⟩

/-- The request has left the client. -/
def Delivered (e : Exchange) : Prop := .awaitingResponse ∈ e.milestones

instance (e : Exchange) : Decidable e.Delivered := by
  unfold Delivered; infer_instance

end Exchange

/-- What the far end of a socket does with a connection. -/
inductive SocketEvent where
  /-- It answers with these bytes. -/
  | delivers (reply : Bytes)
  /-- It takes the request and never answers. -/
  | staysSilent
  | refuses
  /-- It closes the connection before the request is sent. -/
  | hangsUp
  /-- The name of the host cannot be looked up at all. -/
  | unusableName
deriving DecidableEq, Repr

/-- What an exchange over a socket comes to, with a buffer for reading and a time limit for
silence in nanoseconds. -/
def SocketEvent.exchange (endpoint : String) (bufferSize patience : Nat) : SocketEvent → Exchange
  | .delivers reply => .answered (reply.take bufferSize)
  | .staysSilent =>
    { Exchange.failed endpoint .receive
        ⟨.wouldBlock, "Resource temporarily unavailable (os error 11)"⟩ with took := patience }
  | .refuses => .failed endpoint .connect ⟨.other, "Connection refused (os error 111)"⟩
  | .hangsUp => .failed endpoint .send ⟨.other, "Broken pipe (os error 32)"⟩
  | .unusableName =>
    .failed endpoint .connect ⟨.other, "file name contained an unexpected NUL byte"⟩

/-- A peer that goes through a list of exchanges, whatever is asked, and then repeats one. -/
def Dialogue.Peer.ofList (exchanges : List Exchange) (after : Exchange) : Dialogue.Peer :=
  .prompt fun earlier _ => exchanges.getD earlier.length after

end MeterLink

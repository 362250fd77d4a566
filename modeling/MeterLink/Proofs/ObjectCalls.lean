import MeterLink.Meter.Reading
import MeterLink.Proofs.RecordOutcome
import MeterLink.Proofs.Requests

/-!
# Calls on one object

A call on an object makes one transaction on its identifier. A read gives what can be made of the
payload that came (`run_readRecord`, `run_readNamed`), a write drops the answer (`run_writeRecord`,
`run_writeNamed`).
-/

namespace MeterLink

open Dialogue (Peer Wire)

section Run

variable (peer : Peer) (line : Line) (id : ObjectId) (s : Session) (w : Wire)

theorem run_readRecord :
    let out := (transact (.readObject id)).run peer line s w
    (readRecord id).run peer line s w
      = (out.1.bind fun frame => (id.decodePayload frame.data.payload).mapError .codec, out.2) := by
  intro out
  have hpayload : (readPayload id).run peer line s w = (out.1.map (·.data.payload), out.2) := by
    rw [readPayload]
    exact ClientM.run_map ..
  rw [readRecord, ClientM.run_bind, hpayload]
  rcases out with ⟨e | frame, s', w'⟩
  · rfl
  · exact ClientM.run_lift_codec ..

theorem run_writePayload (payload : Bytes) :
    let out := (transact (.writeObject id payload)).run peer line s w
    (do let _ ← writePayload id payload : ClientM Unit).run peer line s w
      = (out.1.map fun _ => (), out.2) := by
  refine (ClientM.run_map ..).trans ?_
  rw [writePayload, ClientM.run_map]
  rcases (transact (.writeObject id payload)).run peer line s w with ⟨_ | _, _⟩ <;> rfl

variable {id} in
theorem run_writeRecord {value : Record} {payload : Bytes} (h : id.encodePayload value = .ok payload) :
    let out := (transact (.writeObject id payload)).run peer line s w
    (writeRecord id value).run peer line s w = (out.1.map fun _ => (), out.2) := by
  rw [writeRecord, ClientM.run_bind, ClientM.run_lift_codec, h]
  exact run_writePayload peer line id s w payload

end Run

namespace Meter

theorem object_eq {name : String} {e : CatalogueEntry} (h : ObjectId.named? name = some e) :
    object name = .ok e.id := by
  rw [object, h]

/-- What a view shows of a payload that came for an object. -/
def viewed {α : Type} (view : Record → Option α) (id : ObjectId) (payload : Bytes) :
    Except Failure α := do
  let record ← (id.decodePayload payload).mapError .codec
  match view record with
  | some a => .ok a
  | none => .error (unexpected id record)

theorem viewed_ok {α : Type} {view : Record → Option α} {id : ObjectId} {payload : Bytes}
    {record : Record} {a : α} (hdec : id.decodePayload payload = .ok record)
    (hview : view record = some a) : viewed view id payload = .ok a := by
  simp only [viewed, hdec, Except.mapError, bind, Except.bind, hview]

theorem viewed_short {α : Type} {view : Record → Option α} {id : ObjectId} {payload : Bytes}
    {w : Nat} (hw : id.shape.width? = some w) (h : payload.length < w) :
    viewed view id payload = .error (.codec (.truncated w payload.length)) := by
  rw [viewed, ObjectId.decodePayload, Record.decode_short hw h]
  rfl

section Run

variable (peer : Peer) (line : Line)

theorem run_readView {α : Type} (view : Record → Option α) (id : ObjectId) (s : Session) (w : Wire) :
    let out := (transact (.readObject id)).run peer line s w
    (readView view id).run peer line s w
      = (out.1.bind fun frame => viewed view id frame.data.payload, out.2) := by
  intro out
  have hrecord : (readRecord id).run peer line s w
      = (out.1.bind fun frame => (id.decodePayload frame.data.payload).mapError .codec, out.2) :=
    run_readRecord peer line id s w
  rw [readView, ClientM.run_bind, hrecord]
  rcases out with ⟨e | frame, s', w'⟩
  · rfl
  · simp only [Except.bind, viewed, bind]
    rcases id.decodePayload frame.data.payload with fault | record
    · rfl
    · simp only [Except.mapError]
      cases view record <;> rfl

theorem run_readNamed {α : Type} (view : Record → Option α) {name : String} {e : CatalogueEntry}
    (h : ObjectId.named? name = some e) (s : Session) (w : Wire) :
    let out := (transact (.readObject e.id)).run peer line s w
    (readNamed view name).run peer line s w
      = (out.1.bind fun frame => viewed view e.id frame.data.payload, out.2) := by
  rw [readNamed, ClientM.run_bind, ClientM.run_lift, object_eq h]
  exact run_readView peer line view e.id s w

theorem run_writeNamed {name : String} {e : CatalogueEntry} (h : ObjectId.named? name = some e)
    (payload : Bytes) (s : Session) (w : Wire) :
    let out := (transact (.writeObject e.id payload)).run peer line s w
    (writeNamed name payload).run peer line s w = (out.1.map fun _ => (), out.2) := by
  rw [writeNamed, ClientM.run_bind, ClientM.run_lift, object_eq h]
  exact run_writePayload peer line e.id s w payload

end Run

end Meter

end MeterLink

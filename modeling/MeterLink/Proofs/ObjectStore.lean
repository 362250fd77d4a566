import Mathlib.Logic.Function.Basic
import MeterLink.Proofs.CatalogueRows
import MeterLink.Proofs.ObjectCalls
import MeterLink.Proofs.RawFields

/-!
# Meters that keep objects

A meter may be no more than a store: what is written to an object is what it answers when the object
is read (`Keeps`). Against such a meter every call has a result and an effect that do not depend on
the session (`Yields`), and calls put together yield what their parts do (`Yields.bind`). So a value
that was written is read back, and nothing else has changed (`readRecord_writeRecord`). Every store
of payloads that fit an answer is kept by some meter (`keeps_meter`).
-/

namespace MeterLink

open Dialogue (Peer Wire)

/-- The payload of each object. -/
abbrev ObjectStore := ObjectId → Bytes

namespace ObjectStore

/-- A write replaces one payload. -/
def received (store : ObjectStore) : DataField → ObjectStore
  | .object id .write payload => Function.update store id payload
  | _ => store

/-- The payload that answers a field: what the store holds for a read, and nothing else. -/
def answer (store : ObjectStore) : DataField → Bytes
  | .object id .read _ => store id
  | _ => []

/-- The store after a request. -/
def after (store : ObjectStore) (request : Bytes) : ObjectStore :=
  match Frame.decodeVerified request with
  | .ok f => store.received f.data
  | .error _ => store

/-- The store after requests in their order. -/
def afterAll (store : ObjectStore) (requests : List Bytes) : ObjectStore :=
  requests.foldl after store

theorem after_requestBytes (store : ObjectStore) {data : DataField} (h : data.size ≤ 243)
    (control : UInt8) : store.after (data.requestBytes control) = store.received data := by
  obtain ⟨f, hread, rfl⟩ := DataField.decodeVerified_requestBytes h control
  rw [after, hread]

theorem afterAll_append_singleton (store : ObjectStore) (requests : List Bytes) (request : Bytes) :
    store.afterAll (requests ++ [request]) = (store.afterAll requests).after request := by
  rw [afterAll, List.foldl_append]
  rfl

end ObjectStore

/-- The peer is a meter that held `store` before its first request. It answers each request for an
object with a frame, whose addresses and control byte are its own choice; the frame carries what
the meter holds by then if the object is read, and nothing if it is written. -/
def Keeps (peer : Peer) (store : ObjectStore) : Prop :=
  ∀ earlier request f id access payload, Frame.decodeVerified request = .ok f →
    f.data = .object id access payload → ∃ (answer : Frame) (reply : Bytes),
      answer.encode = .ok reply ∧ (peer earlier request).outcome = .ok reply
      ∧ answer.data.payload = (store.afterAll earlier).answer f.data

/-! ## Calls on a meter that keeps objects -/

section Calls

variable (peer : Peer) (line : Line) (store : ObjectStore)

/-- On whatever session, as long as the meter holds `held`, the call comes to this result, and the
meter then holds `held'`. -/
def Yields {α : Type} (x : ClientM α) (held : ObjectStore) (result : Except Failure α)
    (held' : ObjectStore) : Prop :=
  ∀ s w, store.afterAll w.requests = held → ∃ s' w', x.run peer line s w = (result, s', w')
    ∧ store.afterAll w'.requests = held'

variable {peer line store} {held held' held'' : ObjectStore}

theorem Yields.bind {α β : Type} {x : ClientM α} {f : α → ClientM β} {a : α}
    {result : Except Failure β} (hx : Yields peer line store x held (.ok a) held')
    (hf : Yields peer line store (f a) held' result held'') :
    Yields peer line store (x >>= f) held result held'' := by
  intro s w hw
  obtain ⟨s₁, w₁, hrun, hw₁⟩ := hx s w hw
  rw [ClientM.run_bind, hrun]
  exact hf s₁ w₁ hw₁

theorem Yields.pure {α : Type} (a : α) (held : ObjectStore) :
    Yields peer line store (Pure.pure a) held (.ok a) held :=
  fun s w hw => ⟨s, w, rfl, hw⟩

theorem Yields.lift {α : Type} (x : Except Failure α) (held : ObjectStore) :
    Yields peer line store (liftM x) held x held :=
  fun s w hw => ⟨s, w, ClientM.run_lift peer line s w x, hw⟩

section Kept

variable (hmeter : Keeps peer store) (htime : line.settings.deadline = none)

include hmeter htime

theorem run_transact_kept (id : ObjectId) (access : Access) {payload : Bytes}
    (hfit : payload.length ≤ 238) (s : Session) (w : Wire) :
    let data := DataField.object id access payload
    ∃ frame s' w', (transact data).run peer line s w = (.ok frame, s', w')
      ∧ frame.data.payload = (store.afterAll w.requests).answer data
      ∧ store.afterAll w'.requests = (store.afterAll w.requests).received data := by
  intro data
  have hsize : data.size ≤ 243 := Nat.add_le_add_left hfit 5
  obtain ⟨f, hread, hdata⟩ := DataField.decodeVerified_requestBytes hsize
    (s.nextControl line.settings.sequence).1
  obtain ⟨answer, reply, henc, hout, hanswer⟩ :=
    hmeter w.requests _ f id access payload hread hdata
  obtain ⟨s', w', hrun, hreq⟩ := run_transact_answered line hsize htime henc hout
  refine ⟨_, s', w', hrun, hanswer.trans (by rw [hdata]), ?_⟩
  rw [hreq, ObjectStore.afterAll_append_singleton, ObjectStore.after_requestBytes _ hsize]

/-- A call that reads an object comes to what it makes of the payload held. -/
theorem yields_of_read {α : Type} {x : ClientM α} {id : ObjectId} (f : Bytes → Except Failure α)
    (hx : ∀ s w, let out := (transact (.readObject id)).run peer line s w
      x.run peer line s w = (out.1.bind fun frame => f frame.data.payload, out.2))
    (held : ObjectStore) : Yields peer line store x held (f (held id)) held := by
  intro s w hw
  have hnone : ([] : Bytes).length ≤ 238 := Nat.zero_le 238
  obtain ⟨frame, s', w', hrun, hanswer, hheld⟩ :=
    run_transact_kept hmeter htime id .read hnone s w
  have hpayload : frame.data.payload = held id := by
    rw [hanswer, hw]
    rfl
  refine ⟨s', w', ?_, hheld.trans hw⟩
  rw [hx s w, DataField.readObject, hrun, ← hpayload]
  rfl

theorem yields_of_write {x : ClientM Unit} {id : ObjectId} {payload : Bytes}
    (hx : ∀ s w, let out := (transact (.writeObject id payload)).run peer line s w
      x.run peer line s w = (out.1.map fun _ => (), out.2)) (hfit : payload.length ≤ 238)
    (held : ObjectStore) :
    Yields peer line store x held (.ok ()) (Function.update held id payload) := by
  intro s w hw
  obtain ⟨frame, s', w', hrun, -, hheld⟩ := run_transact_kept hmeter htime id .write hfit s w
  refine ⟨s', w', ?_, by rw [hheld, hw]; rfl⟩
  rw [hx s w, DataField.writeObject, hrun]
  rfl

theorem yields_readRecord (id : ObjectId) (held : ObjectStore) :
    Yields peer line store (readRecord id) held ((id.decodePayload (held id)).mapError .codec)
      held :=
  yields_of_read hmeter htime (fun payload => (id.decodePayload payload).mapError .codec)
    (run_readRecord peer line id) held

theorem yields_writeRecord {id : ObjectId} {value : Record} {payload : Bytes}
    (henc : id.encodePayload value = .ok payload) (hfit : payload.length ≤ 238)
    (held : ObjectStore) : Yields peer line store (writeRecord id value) held (.ok ())
      (Function.update held id payload) :=
  yields_of_write hmeter htime (fun s w => run_writeRecord peer line s w henc) hfit held

end Kept

end Calls

/-! ## Every store is kept by some meter -/

theorem Frame.size_le_of_parse {frame : Bytes} {f : Frame} (h : parse frame = .ok f) :
    f.data.size ≤ frame.length - 13 := by
  obtain ⟨_, header, rest, rfl, hheader, -, hdata, -⟩ := of_parse h
  have hsize := DataField.size_le_of_decode hdata
  simp only [List.length_take, List.length_append, hheader, headerSize] at hsize ⊢
  omega

theorem Frame.size_le_of_decodeVerified {buf : Bytes} {f : Frame}
    (h : decodeVerified buf = .ok f) : f.data.size ≤ 243 := by
  unfold decodeVerified at h
  rcases hsize : wholeSize buf with e | n
  · rw [hsize] at h
    cases h
  · obtain ⟨length, -, -, -, hn, -⟩ := wholeSize_eq_ok_iff.1 hsize
    simp only [hsize, bind, Except.bind] at h
    split at h
    · cases h
    · have hdata := size_le_of_parse h
      have hbyte := length.toNat_lt
      rw [List.length_take] at hdata
      omega

namespace ObjectStore

/-- A meter that answers under the control byte of the request, with the addresses exchanged. -/
def meter (store : ObjectStore) : Peer := .prompt fun earlier request =>
  match Frame.decodeVerified request with
  | .error _ => .refused "not a frame"
  | .ok f =>
    match f.data with
    | .profile .. => .refused "no profile logs"
    | .object id access _ =>
      let data := .object id access ((store.afterAll earlier).answer f.data)
      match Frame.make f.source f.destination f.control data >>= Frame.encode with
      | .error _ => .refused "the answer is too long"
      | .ok reply => .answered reply

variable {store : ObjectStore}

theorem length_received (h : ∀ id, (store id).length ≤ 238) {data : DataField}
    (hdata : data.size ≤ 243) : ∀ id, (store.received data id).length ≤ 238 := by
  intro other
  unfold received
  split
  · rename_i id payload
    rcases eq_or_ne other id with rfl | hne
    · rw [Function.update_self]
      simp only [DataField.size, DataField.payload] at hdata
      omega
    · rw [Function.update_of_ne hne]
      exact h other
  · exact h other

theorem length_after (h : ∀ id, (store id).length ≤ 238) (request : Bytes) :
    ∀ id, (store.after request id).length ≤ 238 := by
  rcases hread : Frame.decodeVerified request with e | f
  · simp only [after, hread]
    exact h
  · simp only [after, hread]
    exact length_received h (Frame.size_le_of_decodeVerified hread)

theorem length_afterAll : ∀ (requests : List Bytes) {store : ObjectStore},
    (∀ id, (store id).length ≤ 238) → ∀ id, (store.afterAll requests id).length ≤ 238
  | [], _, h => h
  | request :: requests, _, h => length_afterAll requests (length_after h request)

theorem keeps_meter (h : ∀ id, (store id).length ≤ 238) : Keeps store.meter store := by
  intro earlier request f id access payload hread hdata
  have hanswer : ((store.afterAll earlier).answer f.data).length ≤ 238 := by
    rw [hdata]
    cases access with
    | read => exact length_afterAll earlier h id
    | write => exact Nat.zero_le _
  have hfit : (DataField.object id access ((store.afterAll earlier).answer f.data)).size ≤ 243 :=
    Nat.add_le_add_left hanswer 5
  have hmake : Frame.make f.source f.destination f.control _ = _ :=
    Frame.make_eq_ok_iff.2 ⟨hfit, rfl⟩
  have henc := Frame.encode_eq_ok_iff.2 ⟨Frame.make_length hmake, rfl⟩
  refine ⟨_, _, henc, ?_, rfl⟩
  simp only [hdata] at hmake henc
  simp only [meter, Peer.answer_prompt, hread, hdata, hmake, bind, Except.bind, henc]
  rfl

end ObjectStore

/-! ## What is written is read back -/

theorem ObjectId.decodePayload_of_encodePayload {id : ObjectId} {value : Record} {payload : Bytes}
    (h : id.encodePayload value = .ok payload) (hvalue : value.IsCanonical) :
    id.decodePayload payload = .ok value :=
  (Record.encode_eq_ok_iff.1 h).decode_eq id.isRegular_shape id.not_overflows_shape hvalue

/-- A value written to an object of a meter that keeps objects is read back from it, and every other
object gives what it gave before. With a deadline the time could be up before the first
attempt. -/
theorem readRecord_writeRecord {peer : Peer} {store : ObjectStore} (hmeter : Keeps peer store)
    {line : Line} (htime : line.settings.deadline = none) {id : ObjectId} {value : Record}
    {payload : Bytes} (henc : id.encodePayload value = .ok payload) (hfit : payload.length ≤ 238)
    (hvalue : value.IsCanonical) (s : Session) (w : Wire) :
    let wrote := (writeRecord id value).run peer line s w
    wrote.1 = .ok ()
      ∧ ((readRecord id).run peer line wrote.2.1 wrote.2.2).1 = .ok value
      ∧ ∀ other ≠ id, ((readRecord other).run peer line wrote.2.1 wrote.2.2).1
        = ((readRecord other).run peer line s w).1 := by
  intro wrote
  obtain ⟨s', w', hrun, hheld⟩ := yields_writeRecord hmeter htime henc hfit _ s w rfl
  have hwrote : wrote = (.ok (), s', w') := hrun
  rw [hwrote]
  refine ⟨rfl, ?_, fun other hother => ?_⟩
  · obtain ⟨_, _, hread, -⟩ := yields_readRecord hmeter htime id _ s' w' hheld
    rw [hread, Function.update_self, ObjectId.decodePayload_of_encodePayload henc hvalue]
    rfl
  · obtain ⟨_, _, hread, -⟩ := yields_readRecord hmeter htime other _ s' w' hheld
    obtain ⟨_, _, hbefore, -⟩ := yields_readRecord hmeter htime other _ s w rfl
    rw [hread, hbefore, Function.update_of_ne hother]

/-- A clock with a day of the week that has no name, on a meter that held nothing. -/
theorem readRecord_writeRecord_clock :
    let id : ObjectId := .ofNat 0x800800
    let value : Record := .clock ⟨24, 2, 29, 23, 59, 58, .unknown 9⟩
    let line : Line := ⟨"meter", { verifyChecksum := false, sequence := .alternating }⟩
    let peer := ObjectStore.meter fun _ => []
    let wrote := (writeRecord id value).run peer line {} .fresh
    id.encodePayload value = .ok [24, 2, 29, 23, 59, 58, 9] ∧ wrote.1 = .ok ()
      ∧ ((readRecord id).run peer line wrote.2.1 wrote.2.2).1 = .ok value := by
  intro id value line peer wrote
  have hmeter : Keeps peer fun _ => [] := ObjectStore.keeps_meter fun _ => Nat.zero_le _
  have henc : id.encodePayload value = .ok [24, 2, 29, 23, 59, 58, 9] := by decide +kernel
  have hvalue : value.IsCanonical := ⟨9, rfl⟩
  have htime : line.settings.deadline = none := by decide
  obtain ⟨hok, hread, -⟩ := readRecord_writeRecord hmeter htime henc (by decide) hvalue {} .fresh
  exact ⟨henc, hok, hread⟩

end MeterLink

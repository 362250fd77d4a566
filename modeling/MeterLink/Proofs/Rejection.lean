import MeterLink.Proofs.ObjectCalls
import MeterLink.Proofs.StateTrace

/-!
# Calls that are rejected

A call is rejected when its input is no data field or has no wire form, or when the field does not
fit a frame; reads never are (`Call.Rejected`). A rejected call reports why
(`Call.Rejected.report_eq`) and leaves everything but the sequence bit as it was. Every other call
starts a transaction (`Call.starts_of_not_rejected`), which hands its request to the link unless
the time allowed is up before, and then reports just that (`Call.run_starts`).
-/

namespace MeterLink

open Dialogue (Peer Wire)

namespace Call

/-- The inputs that a call rejects, and the fault that it reports. -/
inductive Rejected : Call → CodecFault → Prop
  | transact {data : DataField} (hlong : 243 < data.size) :
    Rejected (.transact data) (.malformed (.tooLong (12 + data.size)))
  | noField {field : Bytes} {fault : CodecFault} (h : DataField.decode field = .error fault) :
    Rejected (.sendRaw field) fault
  | field {field : Bytes} {data : DataField} (h : DataField.decode field = .ok data)
    (hobject : field.head? = some 1) (hlong : 243 < field.length) :
    Rejected (.sendRaw field) (.malformed (.tooLong (12 + field.length)))
  | payload {id : ObjectId} {payload : Bytes} (hlong : 238 < payload.length) :
    Rejected (.writePayload id payload) (.malformed (.tooLong (17 + payload.length)))
  | noPayload {id : ObjectId} {value : Record} {fault : CodecFault}
    (h : id.encodePayload value = .error fault) : Rejected (.writeRecord id value) fault
  | record {id : ObjectId} {value : Record} {payload : Bytes}
    (h : id.encodePayload value = .ok payload) (hlong : 238 < payload.length) :
    Rejected (.writeRecord id value) (.malformed (.tooLong (17 + payload.length)))

variable (peer : Peer) (line : Line) (s : Session) (w : Wire)

/-- How the call ends, whatever value it gives. -/
def report : Call → Except Failure Unit
  | .transact data => ((MeterLink.transact data).run peer line s w).1.map fun _ => ()
  | .sendRaw field => ((MeterLink.sendRaw field).run peer line s w).1.map fun _ => ()
  | .readPayload id => ((MeterLink.readPayload id).run peer line s w).1.map fun _ => ()
  | .readRecord id => ((MeterLink.readRecord id).run peer line s w).1.map fun _ => ()
  | .writePayload id payload =>
    ((MeterLink.writePayload id payload).run peer line s w).1.map fun _ => ()
  | .writeRecord id value => ((MeterLink.writeRecord id value).run peer line s w).1.map fun _ => ()
  | .readProfile log time => ((MeterLink.readProfile log time).run peer line s w).1.map fun _ => ()

/-- A transaction that fails is a call that fails in the same way. -/
theorem report_of_asks {call : Call} {data : DataField} {e : Failure}
    (hasks : call.asks = some data)
    (h : ((MeterLink.transact data).run peer line s w).1 = .error e) :
    call.report peer line s w = .error e := by
  cases call with
  | transact data =>
    cases hasks
    rw [report, h]
    rfl
  | sendRaw field =>
    have hdecode : DataField.decode field = .ok data := by
      rcases hdecode : DataField.decode field with fault | data'
      · simp [asks, hdecode, Except.toOption] at hasks
      · simpa [asks, hdecode, Except.toOption] using hasks
    rw [report, run_sendRaw_ok peer line s w hdecode, h]
    rfl
  | readPayload id =>
    cases hasks
    rw [report, MeterLink.readPayload, ClientM.run_map, h]
    rfl
  | readRecord id =>
    cases hasks
    rw [report, run_readRecord, h]
    rfl
  | writePayload id payload =>
    cases hasks
    rw [report, MeterLink.writePayload, ClientM.run_map, h]
    rfl
  | writeRecord id value =>
    rcases hpayload : id.encodePayload value with fault | payload
    · simp [asks, hpayload, Except.toOption] at hasks
    · obtain rfl : DataField.writeObject id payload = data := by
        simpa [asks, hpayload, Except.toOption] using hasks
      rw [report, run_writeRecord peer line s w hpayload, h]
      rfl
  | readProfile log time =>
    cases hasks
    rw [report, MeterLink.readProfile, ClientM.run_bind]
    rcases hrun : (MeterLink.transact (.profile log time none)).run peer line s w with
      ⟨result, s', w'⟩
    rw [hrun] at h
    cases h
    rfl

theorem report_of_tooLong {call : Call} {data : DataField} (hasks : call.asks = some data)
    (hlong : 243 < data.size) : call.report peer line s w
      = .error (.codec (.malformed (.tooLong (12 + data.size)))) :=
  call.report_of_asks peer line s w hasks (by rw [run_transact_tooLong peer line s w hlong])

variable {call : Call} {fault : CodecFault}

theorem size_writeObject (id : ObjectId) (payload : Bytes) :
    (DataField.writeObject id payload).size = 5 + payload.length := rfl

/-- A call is rejected before it asks for a transaction, or on account of what it asks for. -/
theorem Rejected.cases (h : call.Rejected fault) :
    (call.asks = none ∧ ∀ peer line s w, call.report peer line s w = .error (.codec fault))
      ∨ ∃ data, call.asks = some data ∧ 243 < data.size
        ∧ fault = .malformed (.tooLong (12 + data.size)) := by
  cases h with
  | transact hlong => exact .inr ⟨_, rfl, hlong, rfl⟩
  | noField h =>
    refine .inl ⟨by simp [asks, h, Except.toOption], fun peer line s w => ?_⟩
    rw [report, run_sendRaw_error peer line s w h]
    rfl
  | @field field data h hobject hlong =>
    have hsize := DataField.size_of_decode h
    rw [if_pos ((DataField.head?_eq_one_iff h).1 hobject)] at hsize
    exact .inr ⟨data, by simp [asks, h, Except.toOption], by omega, by rw [hsize]⟩
  | @payload id payload hlong =>
    refine .inr ⟨_, rfl, ?_, ?_⟩
    · rw [size_writeObject]
      omega
    · rw [size_writeObject, ← Nat.add_assoc]
  | noPayload h =>
    refine .inl ⟨by simp [asks, h, Except.toOption], fun peer line s w => ?_⟩
    rw [report, MeterLink.writeRecord, ClientM.run_bind, ClientM.run_lift_codec, h]
    rfl
  | @record id value payload h hlong =>
    refine .inr ⟨.writeObject id payload, by simp [asks, h, Except.toOption], ?_, ?_⟩
    · rw [size_writeObject]
      omega
    · rw [size_writeObject, ← Nat.add_assoc]

theorem Rejected.not_starts (h : call.Rejected fault) : ¬ call.Starts := by
  rintro ⟨data, hasks, hfit⟩
  rcases h.cases with ⟨hnone, -⟩ | ⟨data', hasks', hlong, -⟩
  · rw [hnone] at hasks
    cases hasks
  · rw [hasks'] at hasks
    cases hasks
    omega

theorem Rejected.report_eq (h : call.Rejected fault) :
    call.report peer line s w = .error (.codec fault) := by
  rcases h.cases with ⟨-, hreport⟩ | ⟨data, hasks, hlong, rfl⟩
  · exact hreport peer line s w
  · exact report_of_tooLong peer line s w hasks hlong

theorem starts_of_not_rejected (h : ∀ fault, ¬ call.Rejected fault) : call.Starts := by
  cases call with
  | transact data => exact ⟨data, rfl, Nat.not_lt.1 fun hlong => h _ (.transact hlong)⟩
  | sendRaw field =>
    rcases hdecode : DataField.decode field with fault | data
    · exact absurd (.noField hdecode) (h fault)
    · refine ⟨data, by simp [asks, hdecode, Except.toOption], ?_⟩
      have hsize := DataField.size_of_decode hdecode
      by_contra hlong
      by_cases hobject : data.format = .object
      · rw [if_pos hobject] at hsize
        exact h _ (.field hdecode ((DataField.head?_eq_one_iff hdecode).2 hobject) (by omega))
      · have := DataField.size_of_profile hobject
        omega
  | readPayload id => exact ⟨_, rfl, show 5 ≤ 243 by decide⟩
  | readRecord id => exact ⟨_, rfl, show 5 ≤ 243 by decide⟩
  | writePayload id payload =>
    refine ⟨_, rfl, ?_⟩
    have : ¬ 238 < payload.length := fun hlong => h _ (.payload hlong)
    rw [size_writeObject]
    omega
  | writeRecord id value =>
    rcases hpayload : id.encodePayload value with fault | payload
    · exact absurd (.noPayload hpayload) (h fault)
    · refine ⟨.writeObject id payload, by simp [asks, hpayload, Except.toOption], ?_⟩
      have : ¬ 238 < payload.length := fun hlong => h _ (.record hpayload hlong)
      rw [size_writeObject]
      omega
  | readProfile log time => exact ⟨_, rfl, show 5 ≤ 243 by decide⟩

/-- A call that starts a transaction either hands its request to the link, or runs out of time. -/
theorem run_starts (h : call.Starts) : ∃ made,
    (call.run peer line s w).2.exchanges = w.exchanges ++ made
      ∧ (made = [] → line.settings.deadline ≠ none
        ∧ ∃ elapsed, call.report peer line s w = .error (.deadline line.endpoint elapsed)) := by
  obtain ⟨data, hasks, hfit⟩ := h
  obtain ⟨made, result, s', w', hrun, hex, hattempts, hnil⟩ :=
    run_transact_attempts peer line s w hfit
  refine ⟨made, ?_, fun hmade => ⟨?_, ?_⟩⟩
  · rw [Call.run_eq, hasks]
    exact (congrArg (·.2.2.exchanges) hrun).trans hex
  · exact hnil hmade
  · obtain ⟨elapsed, hresult⟩ := hattempts.result_of_nil hmade
    exact ⟨elapsed, report_of_asks peer line s w hasks (by rw [hrun, hresult])⟩

/-- The rejected calls are those that report a fault of a message without an exchange. They leave
the session as it was, but for the sequence bit, and every other call makes an exchange unless its
time is limited. -/
theorem rejected_or_sent (call : Call) :
    (∀ fault, call.Rejected fault ↔ call.report peer line s w = .error (.codec fault)
        ∧ (call.run peer line s w).2.exchanges = w.exchanges)
      ∧ (∀ fault, call.Rejected fault →
        ∃ bit, call.run peer line s w = ({ s with sequenceBit := bit }, w))
      ∧ ((∀ fault, ¬ call.Rejected fault) → line.settings.deadline = none →
        ∃ first more, (call.run peer line s w).2.exchanges = w.exchanges ++ first :: more) := by
  have hkept : ∀ fault, call.Rejected fault →
      ∃ bit, call.run peer line s w = ({ s with sequenceBit := bit }, w) :=
    fun fault h => call.run_idle peer line s w h.not_starts
  refine ⟨fun fault => ⟨fun h => ⟨h.report_eq peer line s w, ?_⟩, fun ⟨hreport, hex⟩ => ?_⟩, hkept,
    fun h hdeadline => ?_⟩
  · obtain ⟨bit, hrun⟩ := hkept fault h
    rw [hrun]
  · by_contra hnot
    by_cases hother : ∃ other, call.Rejected other
    · obtain ⟨other, h⟩ := hother
      have hsame := hreport.symm.trans (h.report_eq peer line s w)
      cases hsame
      exact hnot h
    · obtain ⟨made, hmade, hsilent⟩ :=
        run_starts peer line s w (starts_of_not_rejected (not_exists.1 hother))
      rw [hmade, List.append_right_eq_self] at hex
      obtain ⟨-, elapsed, hlate⟩ := hsilent hex
      rw [hlate] at hreport
      cases hreport
  · obtain ⟨made, hmade, hsilent⟩ := run_starts peer line s w (starts_of_not_rejected h)
    rcases made with _ | ⟨first, more⟩
    · exact absurd hdeadline (hsilent rfl).1
    · exact ⟨first, more, hmade⟩

/-- A write that is one byte too long, after a read that failed. -/
example :
    let write := Call.writePayload (.ofNat 0x600100) (List.replicate 239 0)
    let line : Line := ⟨"meter", {}⟩
    let refused : Peer := .prompt fun _ _ => .failed "meter" .connect ⟨.other, "refused"⟩
    let read := (Call.readPayload (.ofNat 0x600100)).run refused line {} .fresh
    write.report refused line read.1 read.2 = .error (.codec (.malformed (.tooLong 256)))
      ∧ (write.run refused line read.1 read.2).1 = read.1
      ∧ read.1.transitions = [.connecting, .connecting, .connecting, .failed] := by
  decide +kernel

end Call

end MeterLink

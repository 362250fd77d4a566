import MeterLink.Proofs.Attempts

/-!
# The requests of a transaction

Whatever the far end does, a transaction sends one and the same request, once for each attempt
(`run_transact_requests`): the frame around its data field, with the control byte whose turn it
was. A field that fits a frame is sent at least once if there is no deadline; one that does not fit
is not sent, and uses up a turn of the sequence bit (`run_transact_tooLong`).
-/

namespace MeterLink

/-- The header of a frame has eleven bytes and ends with the control byte. -/
theorem Frame.unsealed_eq (f : Frame) : ∃ header : Bytes, header.length = 11
    ∧ header[1]? = some f.length ∧ header[10]? = some f.control
    ∧ f.unsealed = header ++ f.data.encode := by
  obtain ⟨d, d₀, d₁, d₂, hd, -⟩ := f.destination.bytes_eq
  obtain ⟨t, t₀, t₁, t₂, ht, -⟩ := f.source.bytes_eq
  refine ⟨[delimiter, f.length, d, d₀, d₁, d₂, t, t₀, t₁, t₂, f.control], rfl, rfl, rfl, ?_⟩
  rw [unsealed, hd, ht]
  rfl

namespace DataField

/-- The frame from the client to the meter around a field. -/
def requestFrame (data : DataField) (control : UInt8) : Frame :=
  ⟨UInt8.ofNat (Frame.overhead + data.size), Frame.meterAddress, Frame.clientAddress, control, data,
    0⟩

/-- The wire form of that frame. -/
def requestBytes (data : DataField) (control : UInt8) : Bytes :=
  (data.requestFrame control).unsealed
    ++ bigEndian 2 (Crc.checksum ((data.requestFrame control).unsealed.drop 1)).toNat

@[simp] theorem size_readObject (id : ObjectId) : (readObject id).size = 5 := rfl

section Fits

variable {data : DataField} (h : data.size ≤ 243) (control : UInt8)

include h

theorem request_eq_ok : Frame.request control data = .ok (data.requestFrame control) :=
  Frame.make_eq_ok_iff.2 ⟨h, rfl⟩

theorem encode_requestFrame :
    (data.requestFrame control).encode = .ok (data.requestBytes control) :=
  Frame.encode_eq_ok_iff.2 ⟨Frame.make_length (request_eq_ok h control), rfl⟩

theorem length_requestBytes :
    (data.requestBytes control)[1]?.map UInt8.toNat = some (12 + data.size) :=
  congrArg some (Frame.make_length (request_eq_ok h control))

theorem decodeVerified_requestBytes : ∃ f, Frame.decodeVerified (data.requestBytes control) = .ok f
    ∧ f.data = data := by
  have hread := Frame.decodeVerified_append (encode_requestFrame h control) []
  rw [List.append_nil] at hread
  exact ⟨_, hread, rfl⟩

end Fits

theorem control_requestBytes (data : DataField) (control : UInt8) :
    (data.requestBytes control)[10]? = some control := by
  obtain ⟨header, hlen, -, hcontrol, heq⟩ := (data.requestFrame control).unsealed_eq
  rw [requestBytes, heq, List.append_assoc, List.getElem?_append_left (by omega), hcontrol]
  rfl

/-- The bytes between the header and the checksum are the field. -/
theorem field_requestBytes (data : DataField) (control : UInt8) :
    ((data.requestBytes control).drop 11).take ((data.requestBytes control).length - 13)
      = data.encode := by
  obtain ⟨header, hlen, -, -, heq⟩ := (data.requestFrame control).unsealed_eq
  have hfield : (data.requestFrame control).data = data := rfl
  rw [requestBytes, heq, hfield, List.append_assoc, List.drop_left' hlen]
  refine List.take_left' ?_
  simp only [List.length_append, length_bigEndian, hlen]
  omega

end DataField

/-! ## What the attempts send -/

theorem Session.sequenceBit_follow : ∀ (ms : List Milestone) (s : Session),
    (s.follow ms).sequenceBit = s.sequenceBit
  | [], _ => rfl
  | m :: ms, s => sequenceBit_follow ms (s.enter m.state)

namespace Line.Attempts

variable {line : Line} {request : Bytes} {s s' : Session} {made : List (Bytes × Exchange)}
  {result : Except Failure Frame} (h : line.Attempts request s made result s')

include h

/-- The attempts send one request over and over. -/
theorem requests_eq : made.map Prod.fst = List.replicate made.length request := by
  induction h with
  | overdue _ => rfl
  | final _ _ => rfl
  | exhausted _ _ => rfl
  | again _ _ ih => rw [List.map_cons, ih, List.length_cons, List.replicate_succ]

theorem sequenceBit_eq : s'.sequenceBit = s.sequenceBit := by
  induction h with
  | overdue _ => rfl
  | final _ _ => exact Session.sequenceBit_follow ..
  | exhausted _ _ => exact Session.sequenceBit_follow ..
  | again _ _ ih => exact ih.trans (Session.sequenceBit_follow ..)

/-- Without an attempt there was no time for one. -/
theorem result_of_nil (hmade : made = []) :
    ∃ elapsed, result = .error (.deadline line.endpoint elapsed) := by
  subst hmade
  cases h with
  | overdue elapsed => exact ⟨elapsed, rfl⟩

end Line.Attempts

section Run

open Dialogue (Wire)

variable (peer : Dialogue.Peer) (line : Line) (s : Session) (w : Wire)

variable {peer line s w} in
theorem run_transact_fits {data : DataField} (h : data.size ≤ 243) {result : Except Failure Frame}
    {s' : Session} {w' : Wire}
    (hrun : (attemptAll line (data.requestBytes (s.nextControl line.settings.sequence).1)
      (line.begun peer s w).clock (line.settings.attempts - 1)
      (s.opened line.settings.sequence)).run peer (line.begun peer s w) = ((result, s'), w')) :
    (transact data).run peer line s w = (result, s', w') :=
  run_transact_eq peer (DataField.request_eq_ok h _) (DataField.encode_requestFrame h _) hrun

theorem run_transact_tooLong {data : DataField} (h : 243 < data.size) :
    (transact data).run peer line s w
      = (.error (.codec (.malformed (.tooLong (12 + data.size)))),
        (s.nextControl line.settings.sequence).2, w) := by
  have herr : Frame.request (s.nextControl line.settings.sequence).1 data >>= Frame.encode
      = .error (.malformed (.tooLong (12 + data.size))) := by
    rw [Frame.request, Frame.make_eq_error h]
    rfl
  simp only [ClientM.run, transact, herr, Dialogue.run]

/-- A transaction on a field that fits a frame is its attempts, of which there is one at least if
there is no deadline. -/
theorem run_transact_attempts {data : DataField} (h : data.size ≤ 243) :
    ∃ made result s' w', (transact data).run peer line s w = (result, s', w')
      ∧ w'.exchanges = w.exchanges ++ made
      ∧ line.Attempts (data.requestBytes (s.nextControl line.settings.sequence).1)
        (s.opened line.settings.sequence) made result s'
      ∧ (made = [] → line.settings.deadline ≠ none) := by
  obtain ⟨made, result, s', w', hrun, hrest⟩ := run_attemptAll_attempts peer
    (data.requestBytes (s.nextControl line.settings.sequence).1) (line.begun peer s w).clock
    (line.settings.attempts - 1) (s.opened line.settings.sequence) (line.begun peer s w)
  exact ⟨made, result, s', w', run_transact_fits h hrun, hrest⟩

/-- A transaction on a field that fits a frame sends the request around it, at least once if there
is no deadline, and uses up a turn of the sequence bit. -/
theorem run_transact_requests {data : DataField} (h : data.size ≤ 243) :
    ∃ k result s' w', (transact data).run peer line s w = (result, s', w')
      ∧ w'.requests = w.requests
        ++ List.replicate k (data.requestBytes (s.nextControl line.settings.sequence).1)
      ∧ s'.sequenceBit = (s.nextControl line.settings.sequence).2.sequenceBit
      ∧ (k = 0 → line.settings.deadline ≠ none ∧ ∃ e, result = .error e) := by
  obtain ⟨made, result, s', w', hrun, hex, hattempts, hnil⟩ :=
    run_transact_attempts peer line s w h
  refine ⟨made.length, result, s', w', hrun, ?_, hattempts.sequenceBit_eq, fun hzero => ?_⟩
  · rw [Wire.requests, hex, List.map_append, hattempts.requests_eq, Wire.requests]
  · have hmade := List.length_eq_zero_iff.1 hzero
    obtain ⟨elapsed, hresult⟩ := hattempts.result_of_nil hmade
    exact ⟨hnil hmade, _, hresult⟩

variable {peer s w} in
/-- Without a deadline, an answer that is read as a frame ends a transaction with its first
attempt. -/
theorem run_transact_read {data : DataField} (h : data.size ≤ 243)
    (htime : line.settings.deadline = none) {frame : Frame} {reply : Bytes}
    (hread : line.settings.readFrame reply = .ok frame) (hout : (peer w.requests
      (data.requestBytes (s.nextControl line.settings.sequence).1)).outcome = .ok reply) :
    ∃ s' w', (transact data).run peer line s w = (.ok frame, s', w')
      ∧ w'.requests
        = w.requests ++ [data.requestBytes (s.nextControl line.settings.sequence).1] := by
  have hlast : ¬ line.settings.Retryable (peer w.requests
      (data.requestBytes (s.nextControl line.settings.sequence).1)).outcome :=
    hout ▸ TransactionSettings.not_retryable_of_readFrame hread
  obtain ⟨hres, hex⟩ := run_transact_once s htime (DataField.request_eq_ok h _)
    (DataField.encode_requestFrame h _) hlast
  rw [hout, Line.resultOf, hread] at hres
  rcases hrun : (transact data).run peer line s w with ⟨result, s', w'⟩
  rw [hrun] at hres hex
  obtain rfl : result = .ok frame := hres
  have hsent : w'.requests = _ := congrArg (List.map Prod.fst) hex
  exact ⟨s', w', rfl, hsent.trans List.map_append⟩

variable {peer s w} in
theorem run_transact_answered {data : DataField} (h : data.size ≤ 243)
    (htime : line.settings.deadline = none) {f : Frame} {reply : Bytes}
    (henc : f.encode = .ok reply) (hout : (peer w.requests
      (data.requestBytes (s.nextControl line.settings.sequence).1)).outcome = .ok reply) :
    ∃ s' w', (transact data).run peer line s w
        = (.ok { f with checksum := Frame.carried reply }, s', w')
      ∧ w'.requests
        = w.requests ++ [data.requestBytes (s.nextControl line.settings.sequence).1] :=
  run_transact_read line h htime (line.settings.readFrame_encode henc) hout

end Run

end MeterLink

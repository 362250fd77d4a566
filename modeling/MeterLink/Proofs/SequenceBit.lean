import MeterLink.Proofs.RawFields

/-!
# The sequence bit over a history of calls

A call makes one transaction at most (`Call.run_eq`), and a transaction uses up a turn of the
sequence bit (`Call.run_asked`). So the turns go by the transactions that are asked for
(`asked_take_turns`), and they go by those that reach the link as long as each that is asked for
does (`sent_take_turns`). A field that is too long uses up a turn and sends nothing, which leaves
two requests in a row with the same bit; so may a deadline that is over before the first attempt.
-/

namespace MeterLink

open Dialogue (Peer Wire)

namespace SequenceMode

/-- The control byte of a transaction, by the number of those before it. -/
def turn : SequenceMode → Nat → UInt8
  | .fixed, _ => 5
  | .alternating, n => if n % 2 = 0 then 5 else 4

/-- Each block of requests has the control byte of its turn, counted from `first`. -/
def TakeTurns (mode : SequenceMode) (first : Nat) (blocks : List (List Bytes)) : Prop :=
  ∀ (i : Nat) (block : List Bytes), blocks[i]? = some block →
    ∀ request ∈ block, request[10]? = some (mode.turn (first + i))

variable {mode : SequenceMode} {first : Nat} {block : List Bytes} {blocks : List (List Bytes)}

theorem takeTurns_nil : mode.TakeTurns first [] := by
  intro i block h
  cases h

theorem takeTurns_cons (hblock : ∀ request ∈ block, request[10]? = some (mode.turn first))
    (hblocks : mode.TakeTurns (first + 1) blocks) : mode.TakeTurns first (block :: blocks) := by
  intro i b h
  cases i with
  | zero =>
    cases h
    exact hblock
  | succ i =>
    rw [← Nat.add_assoc, Nat.add_right_comm]
    exact hblocks i b h

end SequenceMode

namespace Session

/-- So many turns of the sequence bit have been used up. -/
def AtTurn (mode : SequenceMode) (n : Nat) (s : Session) : Prop :=
  mode = .alternating → (s.sequenceBit = true ↔ n % 2 = 0)

variable {mode : SequenceMode} {n : Nat} {s s' : Session}

theorem atTurn_zero (mode : SequenceMode) : AtTurn mode 0 {} := fun _ => by decide

theorem AtTurn.control (h : s.AtTurn mode n) : (s.nextControl mode).1 = mode.turn n := by
  cases mode with
  | fixed => rfl
  | alternating => simp only [nextControl, SequenceMode.turn, h rfl]

theorem AtTurn.next (h : s.AtTurn mode n)
    (hbit : s'.sequenceBit = (s.nextControl mode).2.sequenceBit) : s'.AtTurn mode (n + 1) := by
  rintro rfl
  have hflip : s'.sequenceBit = !s.sequenceBit := hbit
  have hs := h rfl
  rw [hflip, Bool.not_eq_true', ← Bool.not_eq_true, hs]
  omega

end Session

/-- A call that makes one transaction at most. -/
inductive Call where
  | transact (data : DataField)
  | sendRaw (field : Bytes)
  | readPayload (id : ObjectId)
  | readRecord (id : ObjectId)
  | writePayload (id : ObjectId) (payload : Bytes)
  | writeRecord (id : ObjectId) (value : Record)
  | readProfile (log : ProfileLog) (time : UInt32)

namespace Call

/-- The field of the call's transaction, unless the call is rejected before it makes one. -/
def asks : Call → Option DataField
  | transact data => some data
  | sendRaw field => (DataField.decode field).toOption
  | readPayload id => some (.readObject id)
  | readRecord id => some (.readObject id)
  | writePayload id payload => some (.writeObject id payload)
  | writeRecord id value => (id.encodePayload value).toOption.map (.writeObject id)
  | readProfile log time => some (.profile log time none)

variable (peer : Peer) (line : Line) (s : Session) (w : Wire)

/-- The session and the wire that the call leaves. -/
def run : Call → Session × Wire
  | transact data => ((MeterLink.transact data).run peer line s w).2
  | sendRaw field => ((MeterLink.sendRaw field).run peer line s w).2
  | readPayload id => ((MeterLink.readPayload id).run peer line s w).2
  | readRecord id => ((MeterLink.readRecord id).run peer line s w).2
  | writePayload id payload => ((MeterLink.writePayload id payload).run peer line s w).2
  | writeRecord id value => ((MeterLink.writeRecord id value).run peer line s w).2
  | readProfile log time => ((MeterLink.readProfile log time).run peer line s w).2

theorem run_eq (call : Call) : call.run peer line s w = match call.asks with
    | none => (s, w)
    | some data => ((MeterLink.transact data).run peer line s w).2 := by
  cases call with
  | transact data => rfl
  | sendRaw field =>
    rcases h : DataField.decode field with e | data
    · simp only [run, asks, h, run_sendRaw_error peer line s w h, Except.toOption]
    · simp only [run, asks, h, run_sendRaw_ok peer line s w h, Except.toOption]
  | readPayload id => exact ClientM.run_bind_silent peer line s w _ fun _ _ _ => rfl
  | readRecord id =>
    have hpayload := ClientM.run_bind_silent peer line s w (MeterLink.readPayload id)
      (f := fun payload => liftM (id.decodePayload payload)) fun _ _ _ => by
        rw [ClientM.run_lift_codec]
    exact hpayload.trans (ClientM.run_bind_silent peer line s w _ fun _ _ _ => rfl)
  | writePayload id payload => exact ClientM.run_bind_silent peer line s w _ fun _ _ _ => rfl
  | writeRecord id value =>
    rw [run, MeterLink.writeRecord, ClientM.run_bind, ClientM.run_lift_codec, asks]
    rcases id.encodePayload value with e | payload
    · rfl
    · have hwrite := ClientM.run_bind_silent peer line s w (MeterLink.writePayload id payload)
        (f := fun _ => pure ()) fun _ _ _ => rfl
      exact hwrite.trans (ClientM.run_bind_silent peer line s w _ fun _ _ _ => rfl)
  | readProfile log time =>
    refine ClientM.run_bind_silent peer line s w _ fun frame s w => ?_
    rcases frame.data with _ | _ <;> rfl

/-- A call that asks for a transaction uses up one turn, and sends its requests with the control
byte of that turn. It sends none if its field is too long, and otherwise only for want of time. -/
theorem run_asked {call : Call} {data : DataField} (h : call.asks = some data) :
    ∃ k s' w', call.run peer line s w = (s', w')
      ∧ w'.requests = w.requests
        ++ List.replicate k (data.requestBytes (s.nextControl line.settings.sequence).1)
      ∧ s'.sequenceBit = (s.nextControl line.settings.sequence).2.sequenceBit
      ∧ (243 < data.size → k = 0)
      ∧ (line.settings.deadline = none → k = 0 → 243 < data.size) := by
  rw [run_eq, h]
  by_cases hfit : data.size ≤ 243
  · obtain ⟨k, result, s', w', hrun, hreq, hbit, hzero⟩ :=
      run_transact_requests peer line s w hfit
    exact ⟨k, s', w', congrArg (·.2) hrun, hreq, hbit, fun hlong => absurd hlong (by omega),
      fun htime hk => absurd htime (hzero hk).1⟩
  · have hlong : 243 < data.size := Nat.lt_of_not_le hfit
    exact ⟨0, _, _, congrArg (·.2) (run_transact_tooLong peer line s w hlong),
      (List.append_nil _).symm, rfl, fun _ => rfl, fun _ _ => hlong⟩

end Call

section History

variable (peer : Peer) (line : Line)

/-- The calls of a history, each with the requests that it sends. -/
def history : List Call → Session → Wire → List (Call × List Bytes)
  | [], _, _ => []
  | call :: calls, s, w =>
    let left := call.run peer line s w
    (call, left.2.requests.drop w.requests.length) :: history calls left.1 left.2

theorem history_of_rejected {call : Call} (h : call.asks = none) (calls : List Call) (s : Session)
    (w : Wire) :
    history peer line (call :: calls) s w = (call, []) :: history peer line calls s w := by
  have hrun : call.run peer line s w = (s, w) := by rw [Call.run_eq, h]
  simp only [history, hrun, List.drop_length]

theorem history_of_asked {call : Call} {data : DataField} (h : call.asks = some data)
    (calls : List Call) {n : Nat} {s : Session} (hs : s.AtTurn line.settings.sequence n)
    (w : Wire) : ∃ k s' w', history peer line (call :: calls) s w
        = (call, List.replicate k (data.requestBytes (line.settings.sequence.turn n)))
          :: history peer line calls s' w'
      ∧ s'.AtTurn line.settings.sequence (n + 1)
      ∧ (243 < data.size → k = 0)
      ∧ (line.settings.deadline = none → k = 0 → 243 < data.size) := by
  obtain ⟨k, s', w', hrun, hreq, hbit, hsilent⟩ := Call.run_asked peer line s w h
  refine ⟨k, s', w', ?_, hs.next hbit, hsilent⟩
  simp only [history, hrun, hreq, List.drop_left, hs.control]

theorem control_of_mem_replicate {data : DataField} {control : UInt8} {k : Nat} :
    ∀ request ∈ List.replicate k (data.requestBytes control), request[10]? = some control := by
  intro request h
  rw [List.eq_of_mem_replicate h, DataField.control_requestBytes]

theorem calls_history : ∀ (calls : List Call) (s : Session) (w : Wire),
    (history peer line calls s w).map Prod.fst = calls
  | [], _, _ => rfl
  | call :: calls, _, _ => congrArg (call :: ·) (calls_history calls _ _)

/-- A call sends nothing if it is rejected or its field is too long, and otherwise only for want of
time. -/
theorem silent_of_mem_history : ∀ (calls : List Call) {n : Nat} {s : Session} {w : Wire},
    s.AtTurn line.settings.sequence n → ∀ p ∈ history peer line calls s w,
      ((∀ data ∈ p.1.asks, 243 < data.size) → p.2 = [])
        ∧ (line.settings.deadline = none → p.2 = [] → ∀ data ∈ p.1.asks, 243 < data.size)
  | [], _, _, _, _, p, hp => by cases hp
  | call :: calls, n, s, w, hs, p, hp => by
    rcases h : call.asks with _ | data
    · rw [history_of_rejected peer line h] at hp
      rcases List.mem_cons.1 hp with rfl | hp
      · simp [h]
      · exact silent_of_mem_history calls hs p hp
    · obtain ⟨k, s', w', heq, hs', hsilent⟩ := history_of_asked peer line h calls hs w
      rw [heq] at hp
      rcases List.mem_cons.1 hp with rfl | hp
      · simpa [h] using hsilent
      · exact silent_of_mem_history calls hs' p hp

theorem asked_take_turns : ∀ (calls : List Call) {n : Nat} {s : Session} {w : Wire},
    s.AtTurn line.settings.sequence n →
      line.settings.sequence.TakeTurns n
        (((history peer line calls s w).filter fun p => p.1.asks.isSome).map Prod.snd)
  | [], _, _, _, _ => SequenceMode.takeTurns_nil
  | call :: calls, n, s, w, hs => by
    rcases h : call.asks with _ | data
    · rw [history_of_rejected peer line h, List.filter_cons_of_neg (by simp [h])]
      exact asked_take_turns calls hs
    · obtain ⟨k, s', w', heq, hs', -⟩ := history_of_asked peer line h calls hs w
      rw [heq, List.filter_cons_of_pos (by simp [h]), List.map_cons]
      exact SequenceMode.takeTurns_cons control_of_mem_replicate (asked_take_turns calls hs')

/-- Only a call that sends something counts, so no turn may be used up in silence. -/
theorem sent_take_turns : ∀ (calls : List Call) {n : Nat} {s : Session} {w : Wire},
    s.AtTurn line.settings.sequence n →
      (∀ p ∈ history peer line calls s w, p.1.asks.isSome → p.2 ≠ []) →
        line.settings.sequence.TakeTurns n
          (((history peer line calls s w).map Prod.snd).filter fun sent => !sent.isEmpty)
  | [], _, _, _, _, _ => SequenceMode.takeTurns_nil
  | call :: calls, n, s, w, hs, hheard => by
    rcases h : call.asks with _ | data
    · rw [history_of_rejected peer line h, List.forall_mem_cons] at hheard
      rw [history_of_rejected peer line h, List.map_cons, List.filter_cons_of_neg (by simp)]
      exact sent_take_turns calls hs hheard.2
    · obtain ⟨k, s', w', heq, hs', -⟩ := history_of_asked peer line h calls hs w
      rw [heq, List.forall_mem_cons] at hheard
      have hsent := hheard.1 (by simp [h])
      rw [heq, List.map_cons, List.filter_cons_of_pos (by simpa using hsent)]
      exact SequenceMode.takeTurns_cons control_of_mem_replicate (sent_take_turns calls hs' hheard.2)

/-- Over any history of calls on a new session the control bytes take turns: over the transactions
that are asked for, and over those that reach the link if each that is asked for does. Without a
deadline that is so as long as every field fits a frame. -/
theorem history_takes_turns (calls : List Call) (w : Wire) :
    let calls' := history peer line calls {} w
    let sent := (calls'.map Prod.snd).filter fun requests => !requests.isEmpty
    line.settings.sequence.TakeTurns 0 ((calls'.filter fun p => p.1.asks.isSome).map Prod.snd)
      ∧ (∀ p ∈ calls', ((∀ data ∈ p.1.asks, 243 < data.size) → p.2 = [])
        ∧ (line.settings.deadline = none → p.2 = [] → ∀ data ∈ p.1.asks, 243 < data.size))
      ∧ ((∀ p ∈ calls', p.1.asks.isSome → p.2 ≠ []) → line.settings.sequence.TakeTurns 0 sent)
      ∧ (line.settings.deadline = none →
        (∀ call ∈ calls, ∀ data ∈ call.asks, data.size ≤ 243) →
          line.settings.sequence.TakeTurns 0 sent) := by
  intro calls' sent
  have hs := Session.atTurn_zero line.settings.sequence
  have hsilent := silent_of_mem_history peer line calls (w := w) hs
  have hturns := sent_take_turns peer line calls (w := w) hs
  refine ⟨asked_take_turns peer line calls hs, hsilent, hturns, fun htime hfit =>
    hturns fun p hp hasks hnil => ?_⟩
  obtain ⟨data, hdata⟩ := Option.isSome_iff_exists.1 hasks
  have hcall : p.1 ∈ calls := by
    rw [← calls_history peer line calls {} w]
    exact List.mem_map_of_mem hp
  exact Nat.not_lt.2 (hfit p.1 hcall data hdata) ((hsilent p hp).2 htime hnil data hdata)

end History

/-- Two reads with a write between them that is too long carry the same bit. -/
theorem history_skips_turn :
    let calls : List Call := [.readPayload (.ofNat 0x600100),
      .writePayload (.ofNat 0x600100) (List.replicate 239 0), .readPayload (.ofNat 0x600100)]
    let line : Line := ⟨"meter", { sequence := .alternating }⟩
    ¬ line.settings.sequence.TakeTurns 0
      (((history (.prompt fun _ _ => .refused "no") line calls {} .fresh).map Prod.snd).filter
        fun sent => !sent.isEmpty) := by
  intro calls line h
  have hread : DataField.requestBytes (.readObject (.ofNat 0x600100)) 5
      ∈ [DataField.requestBytes (.readObject (.ofNat 0x600100)) 5] := List.mem_singleton_self _
  have hcontrol := h 1 _ (by decide +kernel) _ hread
  rw [DataField.control_requestBytes] at hcontrol
  cases hcontrol

end MeterLink

import MeterLink.Client.Link
import MeterLink.Client.Transaction
import MeterLink.Proofs.FrameRoundTrip

/-!
# The attempts of a transaction

The attempts of a transaction have four ways to go on: the time is up (`run_attemptAll_late`), the
outcome is final (`run_attemptAll_final`), it is retryable and there is another attempt
(`run_attemptAll_again`) or none is left (`run_attemptAll_exhausted`). `Line.Attempts` has a
constructor for each, so what the attempts do to a session is proved by induction on it
(`run_attemptAll_attempts`). The clock goes on by itself, so the time may be up before the first
attempt. Without a deadline a transaction hands one request to the link up to the first outcome that
is not retryable, or until the attempts are used up, and the last outcome alone decides the result
(`run_attemptAll`, `run_transact`).
-/

namespace MeterLink

/-- Another attempt may succeed: the link failed, or the answer is damaged as a frame. -/
def TransactionSettings.Retryable (settings : TransactionSettings)
    (outcome : Except Failure Bytes) : Prop :=
  (∃ endpoint phase fault, outcome = .error (.transport endpoint phase fault))
    ∨ ∃ reply fault, outcome = .ok reply ∧ settings.readFrame reply = .error fault
      ∧ ((∃ byte, fault = .badDelimiter byte) ∨ (∃ form, fault = .malformed form)
        ∨ ∃ expected actual, fault = .checksum expected actual)

/-- The result of a transaction whose last outcome is this one. -/
def Line.resultOf (line : Line) : Except Failure Bytes → Except Failure Frame
  | .ok reply => (line.settings.readFrame reply).mapError .codec
  | .error (.transport endpoint phase fault) =>
    .error (.unreachable line.endpoint line.settings.attempts (.transport endpoint phase fault))
  | .error e => .error e

/-- What comes of a request that the link has been handed `i` times in a row before. -/
def Dialogue.Wire.repeated (w : Dialogue.Wire) (peer : Dialogue.Peer) (request : Bytes) (i : Nat) :
    Exchange :=
  peer (w.requests ++ List.replicate i request) request

/-- The session after an attempt that came to this exchange and ended at `now`, before the verdict on
it. -/
def Session.attempted (s : Session) (now : Nat) (e : Exchange) : Session :=
  { (s.enter .connecting).follow e.milestones with lastRequest := some now }

/-- The session in which the attempts of a transaction start. -/
def Session.opened (mode : SequenceMode) (s : Session) : Session :=
  { (s.nextControl mode).2 with failedIn := none, transitions := [] }

/-- The state in which a transaction with this result ends. -/
def TransactionState.ofResult {α : Type} : Except Failure α → TransactionState
  | .ok _ => .done
  | .error _ => .failed

section Wires

open Dialogue (Peer Wire)

variable (line : Line) (peer : Peer) (request : Bytes)

/-- The wire when the attempts of a transaction start. -/
def Line.begun (s : Session) (w : Wire) : Wire :=
  w.await peer ((s.opened line.settings.sequence).earliest line.settings)

/-- The time allowed for a transaction is up when its next attempt is due. -/
def Line.Late (started : Nat) (w : Wire) : Prop :=
  ∃ limit ∈ line.settings.deadline, limit ≤ (w.await peer 0).clock - started

/-- The wire when it has been seen that there is time for an attempt. -/
def Line.allowed (w : Wire) : Wire :=
  match line.settings.deadline with
  | none => w
  | some _ => w.await peer 0

/-- The wire when an attempt has been made. -/
def Line.tried (w : Wire) : Wire :=
  ((line.allowed peer w).push request (peer w.requests request)).await peer 0

theorem Line.exchanges_allowed (w : Wire) :
    (line.allowed peer w).exchanges = w.exchanges := by
  unfold allowed
  split <;> rfl

theorem Line.exchanges_tried (w : Wire) : (line.tried peer request w).exchanges
    = w.exchanges ++ [(request, peer w.requests request)] := by
  rw [tried, Wire.exchanges_await, Wire.push, exchanges_allowed]

theorem Line.requests_tried (w : Wire) :
    (line.tried peer request w).requests = w.requests ++ [request] := by
  rw [Wire.requests, exchanges_tried, List.map_append]
  rfl

variable {line peer}

theorem Line.deadline_of_late {started : Nat} {w : Wire} (h : line.Late peer started w) :
    line.settings.deadline ≠ none := by
  obtain ⟨limit, hlimit, -⟩ := h
  exact Option.ne_none_iff_exists'.2 ⟨limit, hlimit⟩

theorem Line.not_late (h : line.settings.deadline = none) (started : Nat) (w : Wire) :
    ¬ line.Late peer started w :=
  fun hlate => deadline_of_late hlate h

theorem run_inTime_go {α : Type} {started : Nat} {w : Wire} (h : ¬ line.Late peer started w)
    (late : Nat → Dialogue α) (go : Dialogue α) :
    (line.settings.inTime started late go).run peer w = go.run peer (line.allowed peer w) := by
  unfold TransactionSettings.inTime Line.allowed
  rcases hlimit : line.settings.deadline with _ | limit
  · rfl
  · have hleft : ¬ limit ≤ (w.await peer 0).clock - started := fun hle => h ⟨limit, hlimit, hle⟩
    simp only [Dialogue.run, if_neg hleft]

theorem run_inTime_late {α : Type} {started : Nat} {w : Wire} (h : line.Late peer started w)
    (late : Nat → Dialogue α) (go : Dialogue α) : ∃ elapsed w', w'.exchanges = w.exchanges
      ∧ (line.settings.inTime started late go).run peer w = (late elapsed).run peer w' := by
  obtain ⟨limit, hlimit, hle⟩ := h
  refine ⟨((w.await peer 0).await peer 0).clock - started, (w.await peer 0).await peer 0, rfl, ?_⟩
  unfold TransactionSettings.inTime
  simp only [Option.mem_def.1 hlimit, Dialogue.run, if_pos hle]

end Wires

/-- What the attempts left to a transaction come to, from a session to the one they leave: the
exchanges they make and the result. -/
inductive Line.Attempts (line : Line) (request : Bytes) :
    Session → List (Bytes × Exchange) → Except Failure Frame → Session → Prop
  | overdue {s : Session} (elapsed : Nat) :
    line.Attempts request s [] (.error (.deadline line.endpoint elapsed)) (s.enter .failed)
  | final {s : Session} (now : Nat) {e : Exchange} (h : ¬ line.settings.Retryable e.outcome) :
    line.Attempts request s [(request, e)] (line.resultOf e.outcome)
      ((s.attempted now e).enter (.ofResult (line.resultOf e.outcome)))
  | exhausted {s : Session} (now : Nat) {e : Exchange} (h : line.settings.Retryable e.outcome) :
    line.Attempts request s [(request, e)] (line.resultOf e.outcome)
      ((s.attempted now e).noteFailure.enter (.ofResult (line.resultOf e.outcome)))
  | again {s s' : Session} {now : Nat} {e : Exchange} {made : List (Bytes × Exchange)}
      {result : Except Failure Frame} (h : line.settings.Retryable e.outcome)
      (rest : line.Attempts request (s.attempted now e).noteFailure made result s') :
    line.Attempts request s ((request, e) :: made) result s'

theorem CodecFault.isCorruption_iff (fault : CodecFault) : fault.IsCorruption ↔
    (∃ byte, fault = .badDelimiter byte) ∨ (∃ form, fault = .malformed form)
      ∨ ∃ expected actual, fault = .checksum expected actual := by
  cases fault <;> simp [IsCorruption]

theorem Attempt.ofOutcome_retryable (line : Line) {outcome : Except Failure Bytes}
    (h : line.settings.Retryable outcome) : ∃ e, ofOutcome line.settings outcome = .retryable e
      ∧ line.resultOf outcome = .error (exhausted line e) := by
  rcases h with ⟨endpoint, phase, fault, rfl⟩ | ⟨reply, fault, rfl, hread, hfault⟩
  · exact ⟨_, rfl, rfl⟩
  · refine ⟨.codec fault, ?_, ?_⟩
    · simp only [ofOutcome, hread]
      rw [if_pos (fault.isCorruption_iff.2 hfault)]
    · simp only [Line.resultOf, hread]
      rfl

theorem Attempt.ofOutcome_not_retryable (line : Line) {outcome : Except Failure Bytes}
    (h : ¬ line.settings.Retryable outcome) :
    (∃ frame, ofOutcome line.settings outcome = .answered frame
        ∧ line.resultOf outcome = .ok frame)
      ∨ ∃ e, ofOutcome line.settings outcome = .final e ∧ line.resultOf outcome = .error e := by
  rcases outcome with e | reply
  · refine .inr ⟨e, ?_⟩
    cases e with
    | transport endpoint phase fault => exact absurd (.inl ⟨_, _, _, rfl⟩) h
    | _ => exact ⟨rfl, rfl⟩
  · rcases hread : line.settings.readFrame reply with fault | frame
    · have hfault : ¬ fault.IsCorruption := fun hc =>
        h (.inr ⟨reply, fault, rfl, hread, fault.isCorruption_iff.1 hc⟩)
      refine .inr ⟨.codec fault, ?_, ?_⟩
      · simp only [ofOutcome, hread]
        rw [if_neg hfault]
      · simp only [Line.resultOf, hread]
        rfl
    · refine .inl ⟨frame, ?_, ?_⟩
      · simp only [ofOutcome, hread]
      · simp only [Line.resultOf, hread]
        rfl

/-- Either reader takes what the one that looks at the checksum takes. -/
theorem TransactionSettings.readFrame_of_decodeVerified (settings : TransactionSettings) {f : Frame}
    {r : Bytes} (h : Frame.decodeVerified r = .ok f) : settings.readFrame r = .ok f := by
  unfold readFrame
  split_ifs
  · exact h
  · exact Frame.decode_of_decodeVerified h

theorem TransactionSettings.readFrame_encode (settings : TransactionSettings) {f : Frame} {r : Bytes}
    (h : f.encode = .ok r) : settings.readFrame r = .ok { f with checksum := Frame.carried r } := by
  have hver := Frame.decodeVerified_append h []
  rw [List.append_nil] at hver
  exact settings.readFrame_of_decodeVerified hver

theorem TransactionSettings.not_retryable_of_readFrame {settings : TransactionSettings}
    {reply : Bytes} {frame : Frame} (h : settings.readFrame reply = .ok frame) :
    ¬ settings.Retryable (.ok reply) := by
  rintro (⟨_, _, _, he⟩ | ⟨_, fault, hreply, hread, -⟩)
  · cases he
  · cases hreply
    rw [h] at hread
    cases hread

section Run

open Dialogue (Wire)

variable (peer : Dialogue.Peer) {line : Line} (request : Bytes) (started retries : Nat)
  (s : Session) (w : Wire)

theorem Dialogue.Wire.requests_push (e : Exchange) :
    (w.push request e).requests = w.requests ++ [request] := by
  simp [Wire.push, Wire.requests]

theorem run_attemptAll_late (ht : line.Late peer started w) : ∃ elapsed w',
    w'.exchanges = w.exchanges ∧ (attemptAll line request started retries s).run peer w
      = ((.error (.deadline line.endpoint elapsed), s.enter .failed), w') := by
  rw [attemptAll]
  exact run_inTime_late ht ..

/-- An attempt for which there is time makes one exchange, and the rest follows from its outcome. -/
theorem run_attemptAll_allowed (ht : ¬ line.Late peer started w) :
    (attemptAll line request started retries s).run peer w
      = let e := peer w.requests request
        let s := s.attempted (line.tried peer request w).clock e
        let next : Dialogue (Except Failure Frame × Session) :=
          match Attempt.ofOutcome line.settings e.outcome with
          | .answered frame => .done (.ok frame, s.enter .done)
          | .final e => .done (.error e, s.enter .failed)
          | .retryable e =>
            match retries with
            | 0 => .done (.error (exhausted line e), s.noteFailure.enter .failed)
            | retries + 1 => attemptAll line request started retries s.noteFailure
        next.run peer (line.tried peer request w) := by
  have hearlier : (line.allowed peer w).requests = w.requests :=
    congrArg (List.map Prod.fst) (line.exchanges_allowed peer w)
  rw [attemptAll, run_inTime_go ht]
  simp only [Dialogue.run, hearlier]
  rfl

theorem run_attemptAll_again (ht : ¬ line.Late peer started w)
    (h : line.settings.Retryable (peer w.requests request).outcome) :
    (attemptAll line request started (retries + 1) s).run peer w
      = (attemptAll line request started retries (s.attempted (line.tried peer request w).clock
          (peer w.requests request)).noteFailure).run peer (line.tried peer request w) := by
  obtain ⟨e, he, -⟩ := Attempt.ofOutcome_retryable line h
  rw [run_attemptAll_allowed peer request started _ s w ht]
  simp only [he]

theorem run_attemptAll_final (ht : ¬ line.Late peer started w)
    (h : ¬ line.settings.Retryable (peer w.requests request).outcome) :
    (attemptAll line request started retries s).run peer w
      = ((line.resultOf (peer w.requests request).outcome,
          (s.attempted (line.tried peer request w).clock (peer w.requests request)).enter
            (.ofResult (line.resultOf (peer w.requests request).outcome))),
          line.tried peer request w) := by
  rw [run_attemptAll_allowed peer request started retries s w ht]
  rcases Attempt.ofOutcome_not_retryable line h with ⟨frame, ha, hres⟩ | ⟨e, he, hres⟩
  · simp only [ha, hres]
    rfl
  · simp only [he, hres]
    rfl

theorem run_attemptAll_exhausted (ht : ¬ line.Late peer started w)
    (h : line.settings.Retryable (peer w.requests request).outcome) :
    (attemptAll line request started 0 s).run peer w
      = ((line.resultOf (peer w.requests request).outcome,
          (s.attempted (line.tried peer request w).clock
            (peer w.requests request)).noteFailure.enter
            (.ofResult (line.resultOf (peer w.requests request).outcome))),
          line.tried peer request w) := by
  obtain ⟨e, he, hres⟩ := Attempt.ofOutcome_retryable line h
  rw [run_attemptAll_allowed peer request started 0 s w ht]
  simp only [he, hres]
  rfl

theorem run_attemptAll_last (ht : ¬ line.Late peer started w)
    (h : retries = 0 ∨ ¬ line.settings.Retryable (peer w.requests request).outcome) :
    ∃ s', (attemptAll line request started retries s).run peer w
      = ((line.resultOf (peer w.requests request).outcome, s'), line.tried peer request w) := by
  by_cases hr : line.settings.Retryable (peer w.requests request).outcome
  · obtain rfl := h.resolve_right (not_not_intro hr)
    exact ⟨_, run_attemptAll_exhausted peer request started s w ht hr⟩
  · exact ⟨_, run_attemptAll_final peer request started retries s w ht hr⟩

/-- The attempts are in time for an exchange if there is no deadline. -/
theorem run_attemptAll_attempts (request : Bytes) (started : Nat) :
    ∀ (retries : Nat) (s : Session) (w : Wire), ∃ made result s' w',
      (attemptAll line request started retries s).run peer w = ((result, s'), w')
        ∧ w'.exchanges = w.exchanges ++ made ∧ line.Attempts request s made result s'
        ∧ (made = [] → line.settings.deadline ≠ none)
  | retries, s, w => by
    by_cases ht : line.Late peer started w
    · obtain ⟨elapsed, w', hex, hrun⟩ := run_attemptAll_late peer request started retries s w ht
      exact ⟨[], _, _, w', hrun, by rw [hex, List.append_nil], .overdue elapsed,
        fun _ => Line.deadline_of_late ht⟩
    by_cases hr : line.settings.Retryable (peer w.requests request).outcome
    · cases retries with
      | zero =>
        exact ⟨[(request, _)], _, _, _, run_attemptAll_exhausted peer request started s w ht hr,
          line.exchanges_tried peer request w, .exhausted _ hr, by simp⟩
      | succ retries =>
        -- The exchange of this attempt goes in front of those that the remaining attempts make.
        obtain ⟨made, result, s', w', hrun, hex, hrest, -⟩ := run_attemptAll_attempts request started
          retries (s.attempted (line.tried peer request w).clock
            (peer w.requests request)).noteFailure (line.tried peer request w)
        refine ⟨(request, peer w.requests request) :: made, result, s', w', ?_, ?_, .again hr hrest,
          by simp⟩
        · rw [run_attemptAll_again peer request started retries s w ht hr, hrun]
        · rw [hex, Line.exchanges_tried, List.append_assoc, List.singleton_append]
    · exact ⟨[(request, _)], _, _, _,
        run_attemptAll_final peer request started retries s w ht hr,
        line.exchanges_tried peer request w, .final _ hr, by simp⟩

theorem Dialogue.Wire.repeated_zero : w.repeated peer request 0 = peer w.requests request := by
  rw [Wire.repeated, List.replicate_zero, List.append_nil]

variable (line) in
theorem Line.repeated_tried (i : Nat) : (line.tried peer request w).repeated peer request i
    = w.repeated peer request (i + 1) := by
  rw [Wire.repeated, Wire.repeated, requests_tried, List.append_assoc, List.replicate_succ,
    List.singleton_append]

/-- Without a deadline, the attempts go on through retryable outcomes to the last one. -/
theorem run_attemptAll (ht : line.settings.deadline = none) :
    ∃ last ≤ retries, ∃ s' w',
      (∀ i < last, line.settings.Retryable (w.repeated peer request i).outcome)
        ∧ (last < retries → ¬ line.settings.Retryable (w.repeated peer request last).outcome)
        ∧ (attemptAll line request started retries s).run peer w
          = ((line.resultOf (w.repeated peer request last).outcome, s'), w')
        ∧ w'.exchanges = w.exchanges
          ++ (List.range (last + 1)).map fun i => (request, w.repeated peer request i) := by
  have hdue := @Line.not_late line peer ht started
  -- Each attempt that is followed by another moves the wire on by one exchange.
  induction retries generalizing s w with
  | zero =>
    obtain ⟨s', hrun⟩ := run_attemptAll_last peer request started 0 s w (hdue w) (.inl rfl)
    refine ⟨0, Nat.le_refl 0, s', _, by simp, by simp, by rw [hrun, Wire.repeated_zero], ?_⟩
    simp [Line.exchanges_tried, Wire.repeated_zero]
  | succ retries ih =>
    by_cases hr : line.settings.Retryable (peer w.requests request).outcome
    · rw [run_attemptAll_again peer request started retries s w (hdue w) hr]
      obtain ⟨last, hle, s', w', hbefore, hstop, hrun, hex⟩ :=
        ih (s.attempted (line.tried peer request w).clock (peer w.requests request)).noteFailure
          (line.tried peer request w)
      simp only [Line.repeated_tried] at hbefore hstop hrun hex
      refine ⟨last + 1, by omega, s', w', ?_, fun hlt => hstop (by omega), hrun, ?_⟩
      · rintro (_ | i) hi
        · rwa [Wire.repeated_zero]
        · exact hbefore i (by omega)
      · rw [hex, List.range_succ_eq_map (n := last + 1), List.map_cons, List.map_map,
          Wire.repeated_zero]
        simp [Line.exchanges_tried, Function.comp_def]
    · obtain ⟨s', hrun⟩ :=
        run_attemptAll_last peer request started (retries + 1) s w (hdue w) (.inr hr)
      refine ⟨0, by omega, s', _, by simp, fun _ => by rwa [Wire.repeated_zero],
        by rw [hrun, Wire.repeated_zero], ?_⟩
      simp [Line.exchanges_tried, Wire.repeated_zero]

variable {request s w} in
/-- A transaction on a field that fits a frame is its attempts, once the time for them has come. -/
theorem run_transact_eq {data : DataField} {frame : Frame} {result : Except Failure Frame}
    {s' : Session} {w' : Wire}
    (hframe : Frame.request (s.nextControl line.settings.sequence).1 data = .ok frame)
    (henc : frame.encode = .ok request)
    (hrun : (attemptAll line request (line.begun peer s w).clock (line.settings.attempts - 1)
      (s.opened line.settings.sequence)).run peer (line.begun peer s w) = ((result, s'), w')) :
    (transact data).run peer line s w = (result, s', w') := by
  have hbytes : Frame.request (s.nextControl line.settings.sequence).1 data >>= Frame.encode
      = .ok request := by
    rw [hframe]
    exact henc
  simp only [ClientM.run, transact, hbytes, Dialogue.run]
  exact congrArg (fun x => (x.1.1, x.1.2, x.2)) hrun

variable {peer request w} in
theorem run_transact_once {data : DataField} {frame : Frame} (ht : line.settings.deadline = none)
    (hframe : Frame.request (s.nextControl line.settings.sequence).1 data = .ok frame)
    (henc : frame.encode = .ok request)
    (h : ¬ line.settings.Retryable (peer w.requests request).outcome) :
    ((transact data).run peer line s w).1 = line.resultOf (peer w.requests request).outcome
      ∧ ((transact data).run peer line s w).2.2.exchanges
        = w.exchanges ++ [(request, peer w.requests request)] := by
  obtain ⟨s', hrun⟩ := run_attemptAll_last peer request (line.begun peer s w).clock
    (line.settings.attempts - 1) (s.opened line.settings.sequence) (line.begun peer s w)
    (Line.not_late ht _ _) (.inr h)
  rw [run_transact_eq peer hframe henc hrun]
  exact ⟨rfl, line.exchanges_tried peer request (line.begun peer s w)⟩

variable (line) in
/-- Without a deadline, a field that fits a frame is sent up to the first outcome that is not
retryable, or as often as there are attempts, in the same bytes each time; the last outcome alone
decides the result. -/
theorem run_transact (data : DataField) {frame : Frame} (ht : line.settings.deadline = none)
    (hframe : Frame.request (s.nextControl line.settings.sequence).1 data = .ok frame) :
    ∃ request last, frame.encode = .ok request ∧ last < max 1 line.settings.maxAttempts
      ∧ (∀ i < last, line.settings.Retryable (w.repeated peer request i).outcome)
      ∧ (last + 1 < max 1 line.settings.maxAttempts →
        ¬ line.settings.Retryable (w.repeated peer request last).outcome)
      ∧ ((transact data).run peer line s w).1
        = line.resultOf (w.repeated peer request last).outcome
      ∧ ((transact data).run peer line s w).2.2.exchanges = w.exchanges
        ++ (List.range (last + 1)).map fun i => (request, w.repeated peer request i) := by
  have henc := Frame.encode_eq_ok_iff.2 ⟨Frame.make_length hframe, rfl⟩
  have hleft : line.settings.attempts - 1 + 1 = max 1 line.settings.maxAttempts := by
    rw [TransactionSettings.attempts]
    omega
  obtain ⟨last, hle, s', w', hbefore, hstop, hrun, hex⟩ := run_attemptAll peer _ _ _ _ _ ht
  rw [run_transact_eq peer hframe henc hrun]
  exact ⟨_, last, henc, by omega, hbefore, fun hlt => hstop (by omega), rfl, hex⟩

/-- A refused connection and an answer use up two attempts, and the answer is reported: accepted if
it is whole, damaged if its checksum is another one and is looked at. -/
theorem run_transact_twice :
    let answer : Frame := ⟨17, Frame.clientAddress, Frame.meterAddress, 5,
      .object ⟨0x600100⟩ .read [], 0⟩
    let reply := answer.unsealed ++ bigEndian 2 (Crc.checksum (answer.unsealed.drop 1)).toNat
    let spoilt := answer.unsealed ++ [0, 0]
    let line (verify : Bool) : Line := ⟨"meter", { maxAttempts := 2, verifyChecksum := verify }⟩
    let peer (reply : Bytes) := Dialogue.Peer.ofList
      [.failed "meter" .connect ⟨.other, "refused"⟩, .answered reply] (.answered [])
    let out (verify : Bool) (reply : Bytes) :=
      (transact (.readObject ⟨0x600100⟩)).run (peer reply) (line verify) {} .fresh
    (∀ verify reply, (out verify reply).2.2.exchanges.length = 2)
      ∧ (∀ verify, (out verify reply).1 = .ok { answer with checksum := Frame.carried reply })
      ∧ (out false spoilt).1 = .ok answer
      ∧ (out true spoilt).1 = .error (.codec (.checksum 0x71fd 0)) := by
  intro answer reply spoilt line peer out
  have hlast : ∀ verify reply, (out verify reply).2.2.exchanges.length = 2
      ∧ (out verify reply).1 = (line verify).resultOf (.ok reply) := by
    intro verify reply
    obtain ⟨request, last, -, hlt, -, hstop, hres, hex⟩ := run_transact (peer reply) (line verify) {}
      .fresh (.readObject ⟨0x600100⟩) rfl (Frame.make_eq_ok_iff.2 ⟨by decide, rfl⟩)
    have hone : last = 1 := by
      rcases last with _ | _ | last
      · exact absurd (.inl ⟨_, _, _, rfl⟩) (hstop (by simp [line]))
      · rfl
      · exact absurd hlt (by simp [line])
    subst hone
    exact ⟨by rw [hex]; rfl, hres⟩
  have hreply : answer.encode = .ok reply := Frame.encode_eq_ok_iff.2 ⟨by decide, rfl⟩
  refine ⟨fun verify reply => (hlast verify reply).1, fun verify => ?_, ?_, ?_⟩
  · rw [(hlast verify reply).2, Line.resultOf, (line verify).settings.readFrame_encode hreply]
    rfl
  · rw [(hlast false spoilt).2]
    decide +kernel
  · rw [(hlast true spoilt).2]
    decide +kernel

end Run

end MeterLink

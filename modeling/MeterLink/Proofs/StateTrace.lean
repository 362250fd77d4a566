import MeterLink.Proofs.SequenceBit

/-!
# The states that a transaction goes through

An exchange adds `connecting` and the milestones it passed to the trace, and the end of the
transaction adds the one state that says how it went. `Session.Ends` is this for the attempts that
are still to be made, so a further attempt goes in front (`Session.Ends.again`), and a whole
transaction starts on an empty trace (`run_transact_trace`). A call that starts no transaction
leaves the trace alone (`Call.run_idle`), so over a history of calls it is always the trace of the
last transaction (`afterCalls_trace`).
-/

namespace MeterLink

open Dialogue (Peer Wire)

def Exchange.trace (e : Exchange) : List TransactionState :=
  .connecting :: e.milestones.map Milestone.state

/-- The states that exchanges take a transaction through, before its end. -/
def traceOf (made : List (Bytes × Exchange)) : List TransactionState :=
  made.flatMap fun p => p.2.trace

theorem traceOf_cons (request : Bytes) (e : Exchange) (made : List (Bytes × Exchange)) :
    traceOf ((request, e) :: made) = e.trace ++ traceOf made :=
  List.flatMap_cons

theorem Milestone.state_cases (m : Milestone) :
    m.state ≠ .connecting ∧ m.state ≠ .done ∧ m.state ≠ .failed := by
  cases m <;> decide

theorem count_connecting_traceOf : ∀ made : List (Bytes × Exchange),
    (traceOf made).count .connecting = made.length
  | [] => rfl
  | (request, e) :: made => by
    have hmilestones : TransactionState.connecting ∉ e.milestones.map Milestone.state := by
      intro h
      obtain ⟨m, -, hm⟩ := List.mem_map.1 h
      exact m.state_cases.1 hm
    rw [traceOf_cons, List.count_append, count_connecting_traceOf made, Exchange.trace,
      List.count_cons_self, List.count_eq_zero.2 hmilestones, List.length_cons]
    omega

theorem not_ended_of_mem_traceOf {made : List (Bytes × Exchange)} {state : TransactionState}
    (h : state ∈ traceOf made) : state ≠ .done ∧ state ≠ .failed := by
  obtain ⟨p, -, hstate⟩ := List.mem_flatMap.1 h
  rcases List.mem_cons.1 hstate with rfl | hstate
  · decide
  · obtain ⟨m, -, rfl⟩ := List.mem_map.1 hstate
    exact m.state_cases.2

namespace Session

theorem transitions_follow : ∀ (ms : List Milestone) (s : Session),
    (s.follow ms).transitions = s.transitions ++ ms.map Milestone.state
  | [], s => (List.append_nil _).symm
  | m :: ms, s => by
    have hcons : s.follow (m :: ms) = (s.enter m.state).follow ms := rfl
    rw [hcons, transitions_follow ms, enter, List.map_cons, List.append_assoc,
      List.singleton_append]

theorem transitions_attempted (s : Session) (now : Nat) (e : Exchange) :
    (s.attempted now e).transitions = s.transitions ++ e.trace := by
  have hfollow : (s.attempted now e).transitions
      = ((s.enter .connecting).follow e.milestones).transitions := rfl
  rw [hfollow, transitions_follow, enter, List.append_assoc, List.singleton_append, Exchange.trace]

/-- Choosing a control byte moves nothing but the sequence bit. -/
theorem nextControl_session (mode : SequenceMode) (s : Session) :
    ∃ bit, (s.nextControl mode).2 = { s with sequenceBit := bit } := by
  cases mode with
  | fixed => exact ⟨s.sequenceBit, rfl⟩
  | alternating => exact ⟨!s.sequenceBit, rfl⟩

/-- From `s` on, a transaction makes these exchanges and ends with this result. -/
structure Ends (s : Session) (made : List (Bytes × Exchange)) (result : Except Failure Frame)
    (s' : Session) : Prop where
  transitions : s'.transitions = s.transitions ++ (traceOf made ++ [.ofResult result])
  state : s'.state = .ofResult result
  lastRequest : s'.lastRequest.isSome ↔ s.lastRequest.isSome ∨ made ≠ []

theorem Ends.overdue (s : Session) (result : Except Failure Frame) :
    s.Ends [] result (s.enter (.ofResult result)) where
  transitions := rfl
  state := rfl
  lastRequest := by simp [enter]

variable {s s₁ s' : Session} {now : Nat} {request : Bytes} {e : Exchange}
  (h : s₁ = s.attempted now e ∨ s₁ = (s.attempted now e).noteFailure)

include h

theorem transitions_of_attempted : s₁.transitions = s.transitions ++ e.trace := by
  rcases h with rfl | rfl <;> exact transitions_attempted s now e

theorem lastRequest_of_attempted : s₁.lastRequest = some now := by
  rcases h with rfl | rfl <;> rfl

theorem Ends.last (result : Except Failure Frame) :
    s.Ends [(request, e)] result (s₁.enter (.ofResult result)) where
  transitions := by
    rw [enter, transitions_of_attempted h, traceOf_cons, List.append_assoc, List.append_assoc]
    rfl
  state := rfl
  lastRequest := by simp [enter, lastRequest_of_attempted h]

theorem Ends.again {made : List (Bytes × Exchange)} {result : Except Failure Frame}
    (rest : s₁.Ends made result s') : s.Ends ((request, e) :: made) result s' where
  transitions := by
    rw [rest.transitions, transitions_of_attempted h, traceOf_cons, List.append_assoc,
      List.append_assoc]
  state := rest.state
  lastRequest := by simp [rest.lastRequest, lastRequest_of_attempted h]

end Session

theorem Line.Attempts.ends {line : Line} {request : Bytes} {s s' : Session}
    {made : List (Bytes × Exchange)} {result : Except Failure Frame}
    (h : line.Attempts request s made result s') : s.Ends made result s' := by
  induction h with
  | overdue elapsed => exact .overdue _ (.error (.deadline line.endpoint elapsed))
  | final now _ => exact .last (.inl rfl) _
  | exhausted now _ => exact .last (.inr rfl) _
  | again _ _ ih => exact .again (.inr rfl) ih

theorem run_transact_trace (peer : Peer) (line : Line) (s : Session) (w : Wire) {data : DataField}
    (h : data.size ≤ 243) :
    ∃ made result s' w', (transact data).run peer line s w = (result, s', w')
      ∧ w'.exchanges = w.exchanges ++ made
      ∧ s'.transitions = traceOf made ++ [.ofResult result] ∧ s'.state = .ofResult result
      ∧ (s'.lastRequest.isSome ↔ s.lastRequest.isSome ∨ made ≠ []) := by
  obtain ⟨made, result, s', w', hrun, hex, hattempts, -⟩ := run_transact_attempts peer line s w h
  have hends := hattempts.ends
  obtain ⟨bit, hbit⟩ := s.nextControl_session line.settings.sequence
  refine ⟨made, result, s', w', hrun, hex, hends.transitions, hends.state, ?_⟩
  rw [hends.lastRequest, Session.opened, hbit]

/-- The call starts a transaction: it is not rejected, and its field fits a frame. -/
def Call.Starts (call : Call) : Prop := ∃ data ∈ call.asks, data.size ≤ 243

section History

variable (peer : Peer) (line : Line) (s : Session) (w : Wire)

theorem Call.run_idle {call : Call} (h : ¬ call.Starts) :
    ∃ bit, call.run peer line s w = ({ s with sequenceBit := bit }, w) := by
  rw [Call.run_eq]
  rcases hasks : call.asks with _ | data
  · exact ⟨s.sequenceBit, rfl⟩
  · have hlong : 243 < data.size := Nat.lt_of_not_le fun hfit => h ⟨data, hasks, hfit⟩
    obtain ⟨bit, hbit⟩ := s.nextControl_session line.settings.sequence
    simp only [run_transact_tooLong peer line s w hlong, hbit]
    exact ⟨bit, rfl⟩

theorem Call.run_started {call : Call} {data : DataField} (hasks : call.asks = some data)
    (hfit : data.size ≤ 243) : ∃ made result s' w',
      (MeterLink.transact data).run peer line s w = (result, s', w')
        ∧ call.run peer line s w = (s', w') ∧ w'.exchanges = w.exchanges ++ made
        ∧ s'.transitions = traceOf made ++ [.ofResult result] ∧ s'.state = .ofResult result
        ∧ (s'.lastRequest.isSome ↔ s.lastRequest.isSome ∨ made ≠ []) := by
  obtain ⟨made, result, s', w', hrun, hrest⟩ := run_transact_trace peer line s w hfit
  refine ⟨made, result, s', w', hrun, ?_, hrest⟩
  rw [Call.run_eq, hasks]
  exact congrArg (·.2) hrun

/-- The trace is as it was before `calls`, or ends in the present state. -/
def Session.Traced (calls : List Call) (s s' : Session) : Prop :=
  (∀ call ∈ calls, ¬ call.Starts) ∧ s'.state = s.state ∧ s'.transitions = s.transitions
    ∨ (∃ call ∈ calls, call.Starts) ∧ s'.transitions.getLast? = some s'.state

theorem Session.Traced.cons {calls : List Call} {call : Call} {s s₁ s' : Session}
    (first : s.Traced [call] s₁) (rest : s₁.Traced calls s') : s.Traced (call :: calls) s' := by
  rcases rest with ⟨hidle, hstate, htrace⟩ | ⟨⟨c, hc, hstarts⟩, hlast⟩
  · rcases first with ⟨hidle₁, hstate₁, htrace₁⟩ | ⟨⟨c, hc, hstarts⟩, hlast⟩
    · rw [List.forall_mem_singleton] at hidle₁
      exact .inl ⟨List.forall_mem_cons.2 ⟨hidle₁, hidle⟩, hstate.trans hstate₁,
        htrace.trans htrace₁⟩
    · refine .inr ⟨⟨c, List.mem_singleton.1 hc ▸ List.mem_cons_self, hstarts⟩, ?_⟩
      rw [hstate, htrace, hlast]
  · exact .inr ⟨⟨c, List.mem_cons_of_mem _ hc, hstarts⟩, hlast⟩

theorem Call.run_traced (call : Call) : ∃ made s' w', call.run peer line s w = (s', w')
    ∧ w'.exchanges = w.exchanges ++ made
    ∧ (s'.lastRequest.isSome ↔ s.lastRequest.isSome ∨ made ≠ []) ∧ s.Traced [call] s' := by
  by_cases h : call.Starts
  · obtain ⟨data, hasks, hfit⟩ := h
    obtain ⟨made, result, s', w', -, hrun, hex, htrace, hstate, hlast⟩ :=
      call.run_started peer line s w hasks hfit
    refine ⟨made, s', w', hrun, hex, hlast, .inr ⟨⟨call, List.mem_singleton_self _, data, hasks,
      hfit⟩, ?_⟩⟩
    rw [htrace, hstate, List.getLast?_concat]
  · obtain ⟨bit, hrun⟩ := call.run_idle peer line s w h
    exact ⟨[], _, w, hrun, (List.append_nil _).symm, by simp,
      .inl ⟨List.forall_mem_singleton.2 h, rfl, rfl⟩⟩

/-- The session and the wire that a history of calls leaves. -/
def afterCalls (calls : List Call) (s : Session) (w : Wire) : Session × Wire :=
  calls.foldl (fun left call => call.run peer line left.1 left.2) (s, w)

theorem afterCalls_traced : ∀ (calls : List Call) (s : Session) (w : Wire), ∃ made s' w',
    afterCalls peer line calls s w = (s', w') ∧ w'.exchanges = w.exchanges ++ made
      ∧ (s'.lastRequest.isSome ↔ s.lastRequest.isSome ∨ made ≠ []) ∧ s.Traced calls s'
  | [], s, w => ⟨[], s, w, rfl, (List.append_nil _).symm, by simp, .inl ⟨by simp, rfl, rfl⟩⟩
  | call :: calls, s, w => by
    obtain ⟨made, s₁, w₁, hrun, hex, hlast, hfirst⟩ := call.run_traced peer line s w
    obtain ⟨more, s', w', hrest, hex', hlast', htraced⟩ := afterCalls_traced calls s₁ w₁
    refine ⟨made ++ more, s', w', ?_, ?_, ?_, hfirst.cons htraced⟩
    · rw [← hrest, afterCalls, List.foldl_cons, hrun]
      rfl
    · rw [hex', hex, List.append_assoc]
    · rw [hlast', hlast, Ne, Ne, Ne, List.append_eq_nil_iff, not_and_or, or_assoc]

/-- After any history of calls on a new session, the session is idle with an empty trace if no
transaction was started, and in the last state of its trace otherwise; a time of the last request
is known exactly if there was one. The next call leaves the trace alone unless it starts a
transaction, and then the trace is that of the exchanges it makes, with one state at the end. -/
theorem afterCalls_trace (calls : List Call) (w₀ : Wire) :
    ∃ earlier s w, afterCalls peer line calls {} w₀ = (s, w)
      ∧ w.exchanges = w₀.exchanges ++ earlier ∧ (s.lastRequest.isSome ↔ earlier ≠ [])
      ∧ ((∀ call ∈ calls, ¬ call.Starts) ∧ s.state = .idle ∧ s.transitions = []
        ∨ (∃ call ∈ calls, call.Starts) ∧ s.transitions.getLast? = some s.state)
      ∧ (∀ call : Call, ¬ call.Starts →
        ∃ bit, call.run peer line s w = ({ s with sequenceBit := bit }, w))
      ∧ ∀ (call : Call) (data : DataField), call.asks = some data → data.size ≤ 243 →
        ∃ made result s' w', (transact data).run peer line s w = (result, s', w')
          ∧ call.run peer line s w = (s', w') ∧ w'.exchanges = w.exchanges ++ made
          ∧ s'.transitions = traceOf made ++ [.ofResult result] ∧ s'.state = .ofResult result
          ∧ s'.transitions.count .connecting = made.length
          ∧ ∀ state ∈ traceOf made, state ≠ .done ∧ state ≠ .failed := by
  obtain ⟨earlier, s, w, hafter, hex, hlast, htraced⟩ := afterCalls_traced peer line calls {} w₀
  refine ⟨earlier, s, w, hafter, hex, by simpa using hlast, htraced,
    fun call h => call.run_idle peer line s w h, fun call data hasks hfit => ?_⟩
  obtain ⟨made, result, s', w', hrun, hcall, hex', htrace, hstate, -⟩ :=
    call.run_started peer line s w hasks hfit
  refine ⟨made, result, s', w', hrun, hcall, hex', htrace, hstate, ?_,
    fun state h => not_ended_of_mem_traceOf h⟩
  rw [htrace, List.count_append, count_connecting_traceOf]
  cases result <;> rfl

/-- Three attempts that could not be sent, and a write that is too long to be tried. -/
example :
    let hungUp : Exchange := .failed "meter" .send ⟨.other, "Broken pipe"⟩
    let calls := [Call.readPayload (.ofNat 0x600100),
      .writePayload (.ofNat 0x600100) (List.replicate 239 0)]
    (afterCalls (.prompt fun _ _ => hungUp) ⟨"meter", {}⟩ calls {} .fresh).1.transitions
      = [.connecting, .connected, .sending, .connecting, .connected, .sending,
        .connecting, .connected, .sending, .failed] := by
  decide +kernel

end History

end MeterLink

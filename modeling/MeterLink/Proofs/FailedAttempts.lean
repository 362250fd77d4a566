import MeterLink.Proofs.StateTrace

/-!
# The state of the last failed attempt

A session notes where an attempt was left if another attempt may follow it, and forgets its note
when a transaction starts. So after a transaction the note is that of the last attempt of this kind
(`Line.Attempts.failedIn_eq`), and only the last attempt of all can be of another
(`Line.Attempts.retryable_of_mem_dropLast`). If that one fails for good the note is not about it:
`failedIn_unnoted` is a transaction whose only attempt failed and that leaves no note at all.
-/

namespace MeterLink

open Dialogue (Peer Wire)

/-- The state in which an exchange leaves an attempt. -/
def Exchange.reached (e : Exchange) : TransactionState :=
  e.trace.getLast (List.cons_ne_nil _ _)

theorem Exchange.reached_cases (e : Exchange) :
    e.reached = .connecting ∨ e.reached = .connected ∨ e.reached = .sending
      ∨ e.reached = .awaitingResponse := by
  have hmem : e.reached ∈ e.trace := List.getLast_mem _
  rcases List.mem_cons.1 hmem with h | h
  · exact .inl h
  · obtain ⟨m, -, hm⟩ := List.mem_map.1 h
    rw [← hm]
    cases m <;> decide

namespace TransactionSettings

/-- The link failed, or the answer cannot be read. -/
def Fails (settings : TransactionSettings) (outcome : Except Failure Bytes) : Prop :=
  (∃ e, outcome = .error e)
    ∨ ∃ reply fault, outcome = .ok reply ∧ settings.readFrame reply = .error fault

variable (settings : TransactionSettings)

theorem fails_of_retryable {outcome : Except Failure Bytes} (h : settings.Retryable outcome) :
    settings.Fails outcome := by
  rcases h with ⟨endpoint, phase, fault, h⟩ | ⟨reply, fault, hreply, hread, -⟩
  · exact .inl ⟨_, h⟩
  · exact .inr ⟨reply, fault, hreply, hread⟩

instance : DecidablePred settings.Fails
  | .error e => isTrue (.inl ⟨e, rfl⟩)
  | .ok reply =>
    match h : settings.readFrame reply with
    | .error fault => isTrue (.inr ⟨reply, fault, rfl, h⟩)
    | .ok frame => isFalse (by
      rintro (⟨_, he⟩ | ⟨_, _, hreply, hread⟩)
      · cases he
      · cases hreply
        rw [h] at hread
        cases hread)

/-- The verdict on the outcome is that another attempt may succeed. -/
def isRetryable (outcome : Except Failure Bytes) : Bool :=
  match Attempt.ofOutcome settings outcome with
  | .retryable _ => true
  | _ => false

theorem isRetryable_iff (outcome : Except Failure Bytes) :
    settings.isRetryable outcome = true ↔ settings.Retryable outcome := by
  unfold isRetryable
  by_cases h : settings.Retryable outcome
  · obtain ⟨e, he, -⟩ := Attempt.ofOutcome_retryable ⟨"", settings⟩ h
    simp only [he, h]
  · rcases Attempt.ofOutcome_not_retryable ⟨"", settings⟩ h with ⟨frame, ha, -⟩ | ⟨e, he, -⟩
    · simp [ha, h]
    · simp [he, h]

instance : DecidablePred settings.Retryable :=
  fun outcome => decidable_of_iff _ (settings.isRetryable_iff outcome)

end TransactionSettings

/-- Where the last of the exchanges with such an outcome left its attempt. -/
def lastReached (P : Except Failure Bytes → Prop) [DecidablePred P]
    (made : List (Bytes × Exchange)) : Option TransactionState :=
  (made.filter fun p => P p.2.outcome).getLast?.map fun p => p.2.reached

section LastReached

variable {P : Except Failure Bytes → Prop} [DecidablePred P] {request : Bytes} {e : Exchange}

theorem lastReached_cons_of_neg (h : ¬ P e.outcome) (made : List (Bytes × Exchange)) :
    lastReached P ((request, e) :: made) = lastReached P made := by
  rw [lastReached, List.filter_cons_of_neg (by simpa using h), lastReached]

theorem lastReached_cons_of_pos (h : P e.outcome) (made : List (Bytes × Exchange)) :
    lastReached P ((request, e) :: made) = (lastReached P made).or (some e.reached) := by
  rw [lastReached, List.filter_cons_of_pos (by simpa using h), List.getLast?_cons, lastReached]
  generalize List.getLast? (List.filter _ _) = last
  cases last <;> rfl

end LastReached

namespace Session

theorem state_follow : ∀ (ms : List Milestone) (s : Session),
    (s.follow ms).state = (s.state :: ms.map Milestone.state).getLast (List.cons_ne_nil _ _)
  | [], _ => rfl
  | m :: ms, s => state_follow ms (s.enter m.state)

theorem failedIn_follow : ∀ (ms : List Milestone) (s : Session),
    (s.follow ms).failedIn = s.failedIn
  | [], _ => rfl
  | m :: ms, s => failedIn_follow ms (s.enter m.state)

theorem failedIn_attempted (s : Session) (now : Nat) (e : Exchange) :
    (s.attempted now e).failedIn = s.failedIn :=
  failedIn_follow ..

theorem failedIn_noteFailure (s : Session) (now : Nat) (e : Exchange) :
    (s.attempted now e).noteFailure.failedIn = some e.reached :=
  congrArg some (state_follow e.milestones (s.enter .connecting))

end Session

namespace Line.Attempts

variable {line : Line} {request : Bytes} {s s' : Session} {made : List (Bytes × Exchange)}
  {result : Except Failure Frame} (h : line.Attempts request s made result s')

include h

theorem failedIn_eq : s'.failedIn = (lastReached line.settings.Retryable made).or s.failedIn := by
  induction h with
  | overdue _ => rfl
  | final now hr =>
    rw [lastReached_cons_of_neg hr]
    exact Session.failedIn_attempted _ now _
  | exhausted now hr =>
    rw [lastReached_cons_of_pos hr]
    exact Session.failedIn_noteFailure ..
  | again hr _ ih =>
    rw [ih, Session.failedIn_noteFailure, lastReached_cons_of_pos hr, Option.or_assoc]
    rfl

theorem retryable_of_mem_dropLast : ∀ p ∈ made.dropLast, line.settings.Retryable p.2.outcome := by
  induction h with
  | overdue _ => simp
  | final _ _ => simp
  | exhausted _ _ => simp
  | @again _ _ _ _ made _ hr _ ih =>
    intro p hp
    cases made with
    | nil => simp at hp
    | cons q made =>
      rw [List.dropLast_cons_cons] at hp
      rcases List.mem_cons.1 hp with rfl | hp
      · exact hr
      · exact ih p hp

end Line.Attempts

theorem lastReached_fails_eq {settings : TransactionSettings} {made : List (Bytes × Exchange)}
    (h : ∀ p ∈ made, settings.Fails p.2.outcome → settings.Retryable p.2.outcome) :
    lastReached settings.Fails made = lastReached settings.Retryable made := by
  have hfilter : (made.filter fun p => settings.Fails p.2.outcome)
      = made.filter fun p => settings.Retryable p.2.outcome := by
    refine List.filter_congr fun p hp => ?_
    rw [decide_eq_decide]
    exact ⟨h p hp, settings.fails_of_retryable⟩
  rw [lastReached, lastReached, hfilter]

theorem lastReached_cases {P : Except Failure Bytes → Prop} [DecidablePred P]
    {made : List (Bytes × Exchange)} {state : TransactionState} (h : state ∈ lastReached P made) :
    state = .connecting ∨ state = .connected ∨ state = .sending ∨ state = .awaitingResponse := by
  obtain ⟨p, -, rfl⟩ := Option.map_eq_some_iff.1 h
  exact p.2.reached_cases

section Run

variable (peer : Peer) (line : Line) (s : Session) (w : Wire)

/-- After a transaction the session names the state in which the last attempt that could be tried
again was left. This is the last failed attempt unless the last attempt of all failed for good. -/
theorem Call.failedIn_run {call : Call} {data : DataField} (hasks : call.asks = some data)
    (hfit : data.size ≤ 243) : ∃ made s' w', call.run peer line s w = (s', w')
      ∧ w'.exchanges = w.exchanges ++ made
      ∧ s'.failedIn = lastReached line.settings.Retryable made
      ∧ (∀ p ∈ made.dropLast, line.settings.Retryable p.2.outcome)
      ∧ ((∀ p ∈ made.getLast?,
            line.settings.Fails p.2.outcome → line.settings.Retryable p.2.outcome) →
          s'.failedIn = lastReached line.settings.Fails made)
      ∧ ∀ state ∈ s'.failedIn, state = .connecting ∨ state = .connected ∨ state = .sending
        ∨ state = .awaitingResponse := by
  obtain ⟨made, result, s', w', hrun, hex, hattempts, -⟩ :=
    run_transact_attempts peer line s w hfit
  have hcall : call.run peer line s w = (s', w') := by
    rw [Call.run_eq, hasks]
    exact congrArg (·.2) hrun
  have hnote : s'.failedIn = lastReached line.settings.Retryable made := by
    rw [hattempts.failedIn_eq, Session.opened, Option.or_none]
  have hbefore := hattempts.retryable_of_mem_dropLast
  refine ⟨made, s', w', hcall, hex, hnote, hbefore, fun hlast => ?_, fun state hstate => ?_⟩
  · rw [hnote, lastReached_fails_eq]
    intro p hp hfails
    rcases List.eq_nil_or_concat' made with rfl | ⟨before, last, rfl⟩
    · simp at hp
    · rw [List.dropLast_concat] at hbefore
      rcases List.mem_append.1 hp with hp | hp
      · exact hbefore p hp
      · rw [List.mem_singleton.1 hp] at hfails ⊢
        exact hlast last (by simp) hfails
  · rw [hnote] at hstate
    exact lastReached_cases hstate

/-- The connection is refused once and then breaks twice. -/
theorem Call.failedIn_run_broken :
    let line : Line := ⟨"meter", {}⟩
    let peer := Dialogue.Peer.ofList [.failed "meter" .connect ⟨.other, "refused"⟩]
      (.failed "meter" .send ⟨.other, "Broken pipe"⟩)
    let out := (Call.readPayload (.ofNat 0x600100)).run peer line {} .fresh
    out.1.failedIn = some .sending
      ∧ lastReached line.settings.Fails out.2.exchanges = some .sending := by
  intro line peer out
  obtain ⟨made, s', w', hrun, hex, -, -, hnote, -⟩ := @Call.failedIn_run peer line {} .fresh
    (.readPayload (.ofNat 0x600100)) _ rfl (by decide)
  have hmade : out.2.exchanges = made := by
    rw [show out = (s', w') from hrun, hex]
    rfl
  have hlast : ∀ p ∈ out.2.exchanges.getLast?,
      line.settings.Fails p.2.outcome → line.settings.Retryable p.2.outcome := by
    decide +kernel
  have hreached : lastReached line.settings.Fails out.2.exchanges = some .sending := by
    decide +kernel
  rw [hmade] at hlast hreached
  refine ⟨?_, hmade ▸ hreached⟩
  rw [show out = (s', w') from hrun, hnote hlast, hreached]

/-- A truncated answer is not asked for again, and the failure leaves no note. -/
theorem Call.failedIn_unnoted :
    let line : Line := ⟨"meter", {}⟩
    let out := (Call.readPayload (.ofNat 0x600100)).run (.prompt fun _ _ => .answered [0x7e, 0x11])
      line {} .fresh
    lastReached line.settings.Fails out.2.exchanges = some .awaitingResponse
      ∧ out.1.failedIn = none := by
  decide +kernel

end Run

end MeterLink

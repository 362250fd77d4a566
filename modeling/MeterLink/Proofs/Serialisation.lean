import MeterLink.Meter.Shared
import MeterLink.Proofs.Attempts

/-!
# Callers of a shared meter are served one after another

Whatever the order of the callers' steps, the meter gets where the admitted calls lead when they
are made one after another on the client (`serve`). What carries the induction is not the state of
the meter but where it will be once the holder has returned (`SharedMeter.finish`): a step of the
holder, its return and a caller that gives up do not move it, and an admission, which needs a free
meter, moves it by one whole call (`SharedMeter.finish_acquire`). The holder is never stuck, so the
meter does get there (`SharedMeter.returns_of_held`).
-/

namespace MeterLink

open Dialogue (Peer Wire)

variable {α : Type}

/-- A call that has been made to its end. -/
structure Served (α : Type) where
  caller : Nat
  result : Except Failure α
  requests : List Bytes

namespace Served

def outcome (v : Served α) : Nat × Except Failure α := (v.caller, v.result)

/-- The part of the log that belongs to the call. -/
def block (v : Served α) : List (Nat × Bytes) := v.requests.map fun request => (v.caller, request)

end Served

/-- The calls that steps admit, in order. -/
def admitted : List (CallerStep α) → List (Nat × SharedCall α)
  | [] => []
  | .acquire caller call :: steps => (caller, call) :: admitted steps
  | .giveUp _ :: steps => admitted steps
  | .advance :: steps => admitted steps
  | .release :: steps => admitted steps

/-- Makes calls one after another directly on the client. -/
def serve (peer : Peer) (line : Line) (patience : Nat) :
    List (Nat × SharedCall α) → Session → Wire → List (Served α) × Session × Wire
  | [], s, w => ([], s, w)
  | (caller, call) :: calls, s, w =>
    let (result, s₁, w₁) := (call.alone patience).run peer line s w
    let (served, s', w') := serve peer line patience calls s₁ w₁
    (⟨caller, result, w₁.requests.drop w.requests.length⟩ :: served, s', w')

/-- What steps give to the callers when the admitted calls come to these results: a caller that
gives up is refused, and the one that returns takes the next result. -/
def outcomesOf (busy : Failure) : List (CallerStep α) → List (Nat × Except Failure α) →
    List (Nat × Except Failure α)
  | [], _ => []
  | .giveUp caller :: steps, results => (caller, .error busy) :: outcomesOf busy steps results
  | .release :: steps, results => results.take 1 ++ outcomesOf busy steps results.tail
  | .acquire _ _ :: steps, results => outcomesOf busy steps results
  | .advance :: steps, results => outcomesOf busy steps results

section Turns

variable {peer : Peer} {patience : Nat} {busy : Failure}

theorem Dialogue.requests_run_prefix (peer : Peer) {β : Type} (d : Dialogue β) (w : Wire) :
    w.requests <+: (d.run peer w).2.requests := by
  induction d generalizing w with
  | done a => exact List.prefix_rfl
  | exchange request next ih =>
    have hpush := w.requests_push request (peer w.requests request)
    exact (hpush ▸ List.prefix_append w.requests [request]).trans (ih _ _)
  | waitUntil time next ih => exact ih _ (w.await peer time)

theorem Dialogue.requests_run (peer : Peer) {β : Type} (d : Dialogue β) (w : Wire) :
    (d.run peer w).2.requests = w.requests ++ d.sent peer w :=
  (List.prefix_iff_eq_append.1 (d.requests_run_prefix peer w)).symm

/-- One exchange or wait of a turn is the first one of the turn on its own. -/
theorem Turn.run_alone_next {rest rest' : Turn α} {w w' : Wire} {sent : List Bytes}
    (h : rest.next? peer patience busy w = some (rest', w', sent)) :
    (rest.alone patience busy).run peer w = (rest'.alone patience busy).run peer w'
      ∧ w'.requests = w.requests ++ sent := by
  cases rest with
  | done result session => cases h
  | exchange request next =>
    cases h
    exact ⟨rfl, w.requests_push request _⟩
  | waitUntil time next =>
    cases h
    exact ⟨rfl, (List.append_nil _).symm⟩
  | nested inner next =>
    cases h
    exact ⟨rfl, (List.append_nil _).symm⟩

theorem Turn.sent_alone_next {rest rest' : Turn α} {w w' : Wire} {sent : List Bytes}
    (h : rest.next? peer patience busy w = some (rest', w', sent)) :
    (rest.alone patience busy).sent peer w = sent ++ (rest'.alone patience busy).sent peer w' := by
  obtain ⟨hrun, hrequests⟩ := run_alone_next h
  have hboth : w.requests ++ (rest.alone patience busy).sent peer w
      = w.requests ++ (sent ++ (rest'.alone patience busy).sent peer w') := by
    rw [← Dialogue.requests_run, hrun, Dialogue.requests_run, hrequests, List.append_assoc]
  exact List.append_cancel_left hboth

end Turns

theorem serve_callers (peer : Peer) (line : Line) (patience : Nat) :
    ∀ (calls : List (Nat × SharedCall α)) (s : Session) (w : Wire),
      (serve peer line patience calls s w).1.map Served.caller = calls.map Prod.fst
  | [], _, _ => rfl
  | (caller, call) :: calls, s, w => by
    rw [serve, List.map_cons, List.map_cons, serve_callers peer line patience calls]

namespace SharedMeter

/-- What the holder is going to be given. -/
def pending (peer : Peer) (m : SharedMeter α) : List (Nat × Except Failure α) :=
  match m.holder with
  | none => []
  | some ⟨caller, rest⟩ => [(caller, ((m.remaining rest).run peer m.wire).1.1)]

section Steps

variable {peer : Peer} {m m' : SharedMeter α} {caller : Nat} {call : SharedCall α}

theorem step_acquire (h : m.step peer (.acquire caller call) = some m') :
    m.holder = none ∧ m' = { m with holder := some ⟨caller, call m.line m.session⟩ } := by
  rw [step] at h
  split at h
  · exact ⟨‹_›, (Option.some.inj h).symm⟩
  · cases h

theorem step_advance (h : m.step peer .advance = some m') :
    ∃ caller rest rest' w sent, m.holder = some ⟨caller, rest⟩
      ∧ rest.next? peer m.patience (m.line.busy m.patience) m.wire = some (rest', w, sent)
      ∧ m' = { m with
          holder := some ⟨caller, rest'⟩
          wire := w
          log := m.log ++ sent.map fun request => (caller, request) } := by
  rw [step] at h
  split at h
  · cases h
  · obtain ⟨⟨rest', w, sent⟩, hnext, rfl⟩ := Option.map_eq_some_iff.1 h
    exact ⟨_, _, rest', w, sent, ‹_›, hnext, rfl⟩

theorem step_release (h : m.step peer .release = some m') :
    ∃ caller result session, m.holder = some ⟨caller, .done result session⟩
      ∧ m' = { m with holder := none, session, outcomes := m.outcomes ++ [(caller, result)] } := by
  rw [step] at h
  split at h
  · exact ⟨_, _, _, ‹_›, (Option.some.inj h).symm⟩
  · cases h

theorem finish_free (h : m.holder = none) : m.finish peer = m := by
  rw [finish, h]

theorem finish_held {rest : Turn α} (h : m.holder = some ⟨caller, rest⟩) :
    m.finish peer = { m with
      holder := none
      session := ((m.remaining rest).run peer m.wire).1.2
      wire := ((m.remaining rest).run peer m.wire).2
      log := m.log ++ ((m.remaining rest).sent peer m.wire).map fun request => (caller, request)
      outcomes := m.outcomes ++ [(caller, ((m.remaining rest).run peer m.wire).1.1)] } := by
  rw [finish, unsent, h]

theorem pending_free (h : m.holder = none) : m.pending peer = [] := by
  rw [pending, h]

theorem pending_held {rest : Turn α} (h : m.holder = some ⟨caller, rest⟩) :
    m.pending peer = [(caller, ((m.remaining rest).run peer m.wire).1.1)] := by
  rw [pending, h]

theorem finish_log (peer : Peer) (m : SharedMeter α) :
    (m.finish peer).log = m.log ++ m.unsent peer := by
  unfold finish unsent
  split <;> simp

/-- An admission moves the end of the holder's turn by one whole call. -/
theorem finish_acquire (h : m.step peer (.acquire caller call) = some m') :
    ∃ result s w, (call.alone m.patience).run peer m.line (m.finish peer).session
        (m.finish peer).wire = (result, s, w)
      ∧ m'.pending peer = [(caller, result)]
      ∧ m'.finish peer = { m.finish peer with
          session := s
          wire := w
          log := (m.finish peer).log
            ++ (w.requests.drop (m.finish peer).wire.requests.length).map fun r => (caller, r)
          outcomes := (m.finish peer).outcomes ++ [(caller, result)] } := by
  obtain ⟨hfree, rfl⟩ := step_acquire h
  rw [finish_free hfree, finish_held rfl, pending_held rfl]
  refine ⟨_, _, _, rfl, rfl, ?_⟩
  simp only [hfree]
  rfl

theorem finish_giveUp (h : m.step peer (.giveUp caller) = some m') :
    m'.finish peer = { m.finish peer with outcomes := m'.outcomes ++ m.pending peer }
      ∧ m'.pending peer = m.pending peer := by
  obtain rfl := Option.some.inj h
  unfold finish pending unsent
  rcases hholder : m.holder with _ | ⟨holder, rest⟩
  · simp [hholder]
  · exact ⟨rfl, rfl⟩

theorem finish_advance (h : m.step peer .advance = some m') :
    m'.finish peer = m.finish peer ∧ m'.pending peer = m.pending peer := by
  obtain ⟨caller, rest, rest', w, sent, hheld, hnext, rfl⟩ := step_advance h
  obtain ⟨hrun, -⟩ := Turn.run_alone_next hnext
  have hsent := Turn.sent_alone_next hnext
  constructor
  · rw [finish_held hheld, finish_held rfl]
    simp only [remaining, hrun, hsent, List.map_append, List.append_assoc]
  · rw [pending_held hheld, pending_held rfl]
    simp only [remaining, hrun]

theorem finish_release (h : m.step peer .release = some m') :
    m'.finish peer = m.finish peer ∧ m'.outcomes = m.outcomes ++ m.pending peer
      ∧ m'.pending peer = [] := by
  obtain ⟨caller, result, session, hheld, rfl⟩ := step_release h
  rw [finish_held hheld, finish_free rfl, pending_held hheld, pending_free rfl]
  simp [remaining, Turn.alone, Dialogue.run, Dialogue.sent]

/-- The steps lead from `m` where the calls that they admit lead, once the holder has returned. -/
structure Serves (peer : Peer) (m : SharedMeter α) (steps : List (CallerStep α))
    (m' : SharedMeter α) (served : List (Served α)) : Prop where
  made : serve peer m.line m.patience (admitted steps) (m.finish peer).session (m.finish peer).wire
    = (served, (m'.finish peer).session, (m'.finish peer).wire)
  log : (m'.finish peer).log = (m.finish peer).log ++ served.flatMap Served.block
  outcomes : m'.outcomes = m.outcomes ++ outcomesOf (m.line.busy m.patience) steps
    (m.pending peer ++ served.map Served.outcome)

variable {m₁ : SharedMeter α} {steps : List (CallerStep α)} {served : List (Served α)}

theorem Serves.nil : Serves peer m [] m [] where
  made := rfl
  log := (List.append_nil _).symm
  outcomes := (List.append_nil _).symm

theorem Serves.acquire (h : m.step peer (.acquire caller call) = some m₁)
    (rest : Serves peer m₁ steps m' served) :
    ∃ v : Served α, Serves peer m (.acquire caller call :: steps) m' (v :: served) := by
  obtain ⟨result, s, w, hrun, hpending, hfinish⟩ := finish_acquire h
  obtain ⟨hfree, rfl⟩ := step_acquire h
  -- The meter was free, so where the rest starts from is where this call alone leads.
  have hmade := rest.made
  have hlog := rest.log
  have houtcomes := rest.outcomes
  rw [hfinish] at hmade hlog
  rw [hpending] at houtcomes
  refine ⟨⟨caller, result, w.requests.drop (m.finish peer).wire.requests.length⟩, ?_, ?_, ?_⟩
  · simp only [admitted, serve, hrun, hmade]
  · rw [hlog, List.flatMap_cons, List.append_assoc]
    rfl
  · rw [houtcomes, pending_free hfree]
    rfl

theorem Serves.giveUp (h : m.step peer (.giveUp caller) = some m₁)
    (rest : Serves peer m₁ steps m' served) :
    Serves peer m (.giveUp caller :: steps) m' served := by
  obtain ⟨hfinish, hpending⟩ := finish_giveUp h
  obtain rfl := Option.some.inj h
  have hmade := rest.made
  have hlog := rest.log
  rw [hfinish] at hmade hlog
  refine ⟨hmade, hlog, ?_⟩
  rw [rest.outcomes, hpending, List.append_assoc]
  rfl

theorem Serves.advance (h : m.step peer .advance = some m₁)
    (rest : Serves peer m₁ steps m' served) : Serves peer m (.advance :: steps) m' served := by
  obtain ⟨hfinish, hpending⟩ := finish_advance h
  obtain ⟨_, _, _, _, _, _, _, rfl⟩ := step_advance h
  exact ⟨hfinish ▸ rest.made, hfinish ▸ rest.log, hpending ▸ rest.outcomes⟩

theorem Serves.release (h : m.step peer .release = some m₁)
    (rest : Serves peer m₁ steps m' served) : Serves peer m (.release :: steps) m' served := by
  -- The end of the turn stays where it was, and what was pending is now given.
  obtain ⟨hfinish, houtcomes, hpending⟩ := finish_release h
  obtain ⟨caller, result, session, hheld, rfl⟩ := step_release h
  refine ⟨hfinish ▸ rest.made, hfinish ▸ rest.log, ?_⟩
  rw [rest.outcomes, hpending, houtcomes, pending_held hheld, List.append_assoc]
  rfl

theorem steps_serve : ∀ {steps : List (CallerStep α)} {m m' : SharedMeter α},
    m.steps peer steps = some m' → ∃ served, Serves peer m steps m' served
  | [], m, m', h => by
    obtain rfl := Option.some.inj h
    exact ⟨[], .nil⟩
  | step :: steps, m, m', h => by
    obtain ⟨m₁, hstep, hsteps⟩ := Option.bind_eq_some_iff.1 h
    obtain ⟨served, hrest⟩ := steps_serve hsteps
    cases step with
    | acquire caller call =>
      obtain ⟨v, hserves⟩ := hrest.acquire hstep
      exact ⟨v :: served, hserves⟩
    | giveUp caller => exact ⟨served, hrest.giveUp hstep⟩
    | advance => exact ⟨served, hrest.advance hstep⟩
    | release => exact ⟨served, hrest.release hstep⟩

theorem step_log {step : CallerStep α} (h : m.step peer step = some m')
    (hlog : m.log.map Prod.snd = m.wire.requests) : m'.log.map Prod.snd = m'.wire.requests := by
  cases step with
  | acquire caller call =>
    obtain ⟨-, rfl⟩ := step_acquire h
    exact hlog
  | giveUp caller =>
    obtain rfl := Option.some.inj h
    exact hlog
  | advance =>
    obtain ⟨caller, rest, rest', w, sent, -, hnext, rfl⟩ := step_advance h
    rw [List.map_append, hlog, (Turn.run_alone_next hnext).2, List.map_map]
    simp [Function.comp_def]
  | release =>
    obtain ⟨caller, result, session, -, rfl⟩ := step_release h
    exact hlog

theorem steps_log : ∀ {steps : List (CallerStep α)} {m m' : SharedMeter α},
    m.steps peer steps = some m' → m.log.map Prod.snd = m.wire.requests →
      m'.log.map Prod.snd = m'.wire.requests
  | [], m, m', h, hlog => by
    obtain rfl := Option.some.inj h
    exact hlog
  | step :: steps, m, m', h, hlog => by
    obtain ⟨m₁, hstep, hsteps⟩ := Option.bind_eq_some_iff.1 h
    exact steps_log hsteps (step_log hstep hlog)

/-- The holder has a way to its return. -/
def Returns (peer : Peer) (m : SharedMeter α) : Prop :=
  ∃ n, m.steps peer (List.replicate n .advance ++ [.release]) = some (m.finish peer)

theorem Returns.advance {rest rest' : Turn α} {w : Wire} {sent : List Bytes}
    (hheld : m.holder = some ⟨caller, rest⟩)
    (hnext : rest.next? peer m.patience (m.line.busy m.patience) m.wire = some (rest', w, sent))
    (h : ∀ {m₁ : SharedMeter α}, m₁.holder = some ⟨caller, rest'⟩ → m₁.Returns peer) :
    m.Returns peer := by
  have hstep : ∃ m₁, m.step peer .advance = some m₁ ∧ m₁.holder = some ⟨caller, rest'⟩ := by
    simp [step, hheld, hnext]
  obtain ⟨m₁, hstep, hheld₁⟩ := hstep
  obtain ⟨n, hsteps⟩ := h hheld₁
  refine ⟨n + 1, ?_⟩
  rw [List.replicate_succ, List.cons_append, steps, hstep, ← (finish_advance hstep).1]
  exact hsteps

/-- The holder is never stuck, a call that is nested in its own included. -/
theorem returns_of_held (rest : Turn α) : ∀ {m : SharedMeter α},
    m.holder = some ⟨caller, rest⟩ → m.Returns peer := by
  induction rest with
  | done result session =>
    intro m h
    refine ⟨0, ?_⟩
    rw [finish_held h]
    simp [steps, step, h, remaining, Turn.alone, Dialogue.run, Dialogue.sent]
  | exchange request next ih => exact fun h => .advance h rfl (ih _)
  | waitUntil time next ih => exact fun h => .advance h rfl (ih _)
  | nested inner next _ ih => exact fun h => .advance h rfl (ih _)

end Steps

/-- Whatever the order of the callers' steps, the requests on the link are those of the admitted
calls, each in one piece and in the order of admission, up to what the holder has still to send;
the callers are given what these calls come to when they are made one after another on the client,
or are refused if they gave up, and the client is left as these calls leave it. The holder is never
stuck. -/
theorem steps_serialised {peer : Peer} {line : Line} {patience : Nat}
    {steps : List (CallerStep α)} {m : SharedMeter α}
    (h : (idle line patience).steps peer steps = some m) :
    ∃ served s w, serve peer line patience (admitted steps) {} .fresh = (served, s, w)
      ∧ served.map Served.caller = (admitted steps).map Prod.fst
      ∧ m.log ++ m.unsent peer = served.flatMap Served.block
      ∧ m.log.map Prod.snd = m.wire.requests
      ∧ m.outcomes = outcomesOf (line.busy patience) steps (served.map Served.outcome)
      ∧ (m.finish peer).session = s ∧ (m.finish peer).wire = w ∧ (m.finish peer).holder = none
      ∧ (m.holder = none → m.finish peer = m)
      ∧ (m.holder ≠ none →
        ∃ n, m.steps peer (List.replicate n .advance ++ [.release]) = some (m.finish peer)) := by
  obtain ⟨served, hserves⟩ := steps_serve h
  have hcallers := serve_callers peer line patience (admitted steps) {} Wire.fresh
  have hmade : serve peer line patience (admitted steps) {} .fresh = _ := hserves.made
  rw [hmade] at hcallers
  refine ⟨served, _, _, hmade, hcallers, ?_, steps_log h rfl, hserves.outcomes, rfl, rfl, ?_,
    finish_free, fun hheld => ?_⟩
  · rw [← finish_log]
    exact hserves.log
  · unfold finish
    split <;> simp_all
  · obtain ⟨⟨caller, rest⟩, hheld⟩ := Option.ne_none_iff_exists'.1 hheld
    exact returns_of_held rest hheld

/-- A caller gives up while another one holds the meter and calls it once more from within. -/
theorem steps_serialised_nested :
    let line : Line := ⟨"meter", {}⟩
    let patience := 20 * nanosPerSecond
    let busy : Except Failure Bytes := .error (line.busy patience)
    let outer : SharedCall Bytes := fun _ s =>
      .exchange [1] fun _ => .nested (fun _ s => .exchange [9] fun _ => .done (.ok []) s)
        fun inner => .exchange [2] fun _ => .done inner s
    let later : SharedCall Bytes := fun _ s => .exchange [3] fun _ => .done (.ok [7]) s
    let steps := [.acquire 0 outer, .advance, .giveUp 1, .advance, .advance, .release,
      .acquire 1 later, .advance, .release]
    let peer : Peer := ⟨fun _ _ => .answered [], fun readings => readings⟩
    ∃ m, (idle line patience).steps peer steps = some m
      ∧ m.log = [(0, [1]), (0, [2]), (1, [3])] ∧ m.outcomes = [(1, busy), (0, busy), (1, .ok [7])]
      ∧ m.session = {} := by
  intro line patience busy outer later steps peer
  obtain ⟨m, hsteps, hfree⟩ : ∃ m, (idle line patience).steps peer steps = some m
      ∧ m.holder = none := ⟨_, rfl, rfl⟩
  obtain ⟨served, s, w, hserve, -, hlog, -, houtcomes, hsession, -, -, hfinish, -⟩ :=
    steps_serialised hsteps
  cases hserve
  rw [hfinish hfree] at hsession
  rw [unsent, hfree, List.append_nil] at hlog
  exact ⟨m, hsteps, hlog, houtcomes, hsession⟩

end SharedMeter

end MeterLink

import MeterLink.Proofs.Requests

/-!
# Chains of transactions

The calls of a meter make transactions one after the other. A chain keeps what each of them was
about, the requests that it sent and what came of it, and all that passes over the wire belongs to
one of them (`Chain.requests_eq`).
-/

namespace MeterLink

open Dialogue (Peer Wire)

/-- A transaction that was made. -/
structure Transacted where
  data : DataField
  /-- The requests that it sent, one for each attempt. -/
  requests : List Bytes
  result : Except Failure Frame

def Transacted.Succeeded (tr : Transacted) : Prop := ∃ frame, tr.result = .ok frame

/-- Every request of the transaction is a frame around its field. -/
def Transacted.Carried (tr : Transacted) : Prop :=
  ∀ request ∈ tr.requests, ∃ f, Frame.decodeVerified request = .ok f ∧ f.data = tr.data

/-- Transactions made one after the other, from one session and wire to another. -/
inductive Chain (peer : Peer) (line : Line) :
    List Transacted → Session → Wire → Session → Wire → Prop where
  | nil (s : Session) (w : Wire) : Chain peer line [] s w s w
  | cons {data : DataField} {result : Except Failure Frame} {ts : List Transacted}
      {s s' s'' : Session} {w w' w'' : Wire}
      (first : (transact data).run peer line s w = (result, s', w'))
      (rest : Chain peer line ts s' w' s'' w'') :
      Chain peer line (⟨data, w'.requests.drop w.requests.length, result⟩ :: ts) s w s'' w''

section Chain

variable {peer : Peer} {line : Line} {ts : List Transacted} {s s' : Session} {w w' : Wire}

theorem requests_prefix_of_transact {data : DataField} {result : Except Failure Frame}
    (h : (transact data).run peer line s w = (result, s', w')) : w.requests <+: w'.requests := by
  by_cases hfit : data.size ≤ 243
  · obtain ⟨k, _, _, _, hrun, hreq, -⟩ := run_transact_requests peer line s w hfit
    rw [h] at hrun
    cases hrun
    exact ⟨_, hreq.symm⟩
  · rw [run_transact_tooLong peer line s w (Nat.lt_of_not_le hfit)] at h
    cases h
    exact List.prefix_refl _

/-- What is sent over the wire is sent by the transactions of the chain. -/
theorem Chain.requests_eq (h : Chain peer line ts s w s' w') :
    w'.requests = w.requests ++ ts.flatMap Transacted.requests := by
  induction h with
  | nil => exact (List.append_nil _).symm
  | cons first rest ih =>
    obtain ⟨sent, hsent⟩ := requests_prefix_of_transact first
    rw [ih, List.flatMap_cons, ← hsent, List.drop_left, List.append_assoc]

/-- A transaction of a chain on a field that fits a frame sends frames with that field, and sends
one if there is no deadline. -/
theorem Chain.requests_of_mem (h : Chain peer line ts s w s' w') {tr : Transacted} (hmem : tr ∈ ts)
    (hfit : tr.data.size ≤ 243) :
    (line.settings.deadline = none → tr.requests ≠ []) ∧ tr.Carried := by
  induction h with
  | nil => cases hmem
  | @cons data result ts s s₁ s₂ w w₁ w₂ first rest ih =>
    rcases List.mem_cons.1 hmem with rfl | hmem
    · obtain ⟨k, _, _, _, hrun, hreq, -, hzero⟩ := run_transact_requests peer line s w hfit
      rw [first] at hrun
      cases hrun
      simp only [Transacted.Carried, hreq, List.drop_left]
      refine ⟨fun hnone hnil => ?_, fun request hrequest => ?_⟩
      · exact (hzero ((List.replicate_eq_nil_iff _).1 hnil)).1 hnone
      rw [List.eq_of_mem_replicate hrequest]
      exact DataField.decodeVerified_requestBytes hfit _
    · exact ih hmem

end Chain

/-- Transactions that go through a list of fields up to the first that fails, and the result that
is reported of them. -/
structure GoesThrough (fields : List DataField) (ts : List Transacted)
    (result : Except Failure Unit) : Prop where
  inOrder : ts.map Transacted.data <+: fields
  afterSuccess : ∀ tr ∈ ts.dropLast, tr.Succeeded
  ok_iff : result = .ok () ↔ ts.length = fields.length ∧ ∀ tr ∈ ts, tr.Succeeded
  error_iff : ∀ e, result = .error e ↔ ∃ tr ∈ ts.getLast?, tr.result = .error e

namespace GoesThrough

theorem nil : GoesThrough [] [] (.ok ()) where
  inOrder := List.prefix_refl _
  afterSuccess := by simp
  ok_iff := by simp
  error_iff := by simp

variable {data : DataField} {requests : List Bytes} {fields : List DataField}

theorem failed {e : Failure} :
    GoesThrough (data :: fields) [⟨data, requests, .error e⟩] (.error e) where
  inOrder := ⟨fields, rfl⟩
  afterSuccess := by simp
  ok_iff := by simp [Transacted.Succeeded]
  error_iff := by simp

theorem cons {frame : Frame} {ts : List Transacted} {result : Except Failure Unit}
    (rest : GoesThrough fields ts result) :
    GoesThrough (data :: fields) (⟨data, requests, .ok frame⟩ :: ts) result where
  inOrder := by
    rw [List.map_cons, List.prefix_cons_inj]
    exact rest.inOrder
  afterSuccess := by
    intro tr htr
    cases ts with
    | nil => cases htr
    | cons t ts =>
      rw [List.dropLast_cons_cons] at htr
      rcases List.mem_cons.1 htr with rfl | htr
      · exact ⟨frame, rfl⟩
      · exact rest.afterSuccess tr htr
  ok_iff := by
    have hsucceeded : Transacted.Succeeded ⟨data, requests, .ok frame⟩ := ⟨frame, rfl⟩
    rw [rest.ok_iff, List.length_cons, List.length_cons, Nat.add_right_cancel_iff,
      List.forall_mem_cons, and_iff_right hsucceeded]
  error_iff := by
    intro e
    rw [rest.error_iff]
    cases ts with
    | nil => simp
    | cons t ts => rw [List.getLast?_cons_cons]

end GoesThrough

end MeterLink

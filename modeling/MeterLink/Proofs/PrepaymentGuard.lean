import MeterLink.Meter.Prepayment
import MeterLink.Proofs.Chains
import MeterLink.Proofs.ObjectCalls

/-!
# The guard on prepayment

Switching prepayment on reads the balance first, and the write follows only if the answer to that
read carries a sufficient balance (`Enabling`). Switching it off asks nothing.
-/

namespace MeterLink.Meter

open Dialogue (Peer Wire)

/-- The balance that a payload carries: its first four bytes as a signed number. -/
def credit? (payload : Bytes) : Option Int :=
  if 4 ≤ payload.length then some (readInt32 (payload.take 4)).toInt else none

/-- What comes of switching prepayment on, by the result of reading the balance: the transactions
that follow, and the result of the call. -/
inductive Enabling (flag : ObjectId) :
    Except Failure Frame → List Transacted → Except Failure Unit → Prop
  | unread (e : Failure) : Enabling flag (.error e) [] (.error e)
  | short {frame : Frame} (none : credit? frame.data.payload = none) :
    Enabling flag (.ok frame) []
      (.error (.codec (.truncated 4 frame.data.payload.length)))
  | low {frame : Frame} {credit : Int} (some : credit? frame.data.payload = some credit)
    (lt : credit < 1000000) : Enabling flag (.ok frame) []
      (.error (.argument (.lowBalance (.ofUnits credit) (.ofUnits 1000000))))
  | enough {frame : Frame} {credit : Int} {writing : Transacted}
    (some : credit? frame.data.payload = some credit) (le : 1000000 ≤ credit)
    (data : writing.data = .writeObject flag [1]) :
    Enabling flag (.ok frame) [writing] (writing.result.map fun _ => ())

theorem Enabling.data_eq {flag : ObjectId} {read : Except Failure Frame} {rest : List Transacted}
    {result : Except Failure Unit} (h : Enabling flag read rest result) :
    ∀ tr ∈ rest, tr.data = .writeObject flag [1] := by
  cases h with
  | enough _ _ data => simpa using data
  | _ => simp

theorem viewed_balance (payload : Bytes) : viewed amount? (.ofNat 0xffc802) payload
    = match credit? payload with
      | some credit => .ok (.ofUnits credit)
      | none => .error (.codec (.truncated 4 payload.length)) := by
  have hshape : (ObjectId.ofNat 0xffc802).shape = .i32 := by decide +kernel
  simp only [viewed, ObjectId.decodePayload, hshape, Record.decode, takeExact, credit?]
  split_ifs <;> rfl

theorem ofUnits_credit_lt_iff {payload : Bytes} {credit : Int} (h : credit? payload = some credit) :
    Amount.ofUnits credit < minimumBalance ↔ credit < 1000000 := by
  unfold credit? at h
  split_ifs at h
  cases h
  have hlo := (readInt32 (payload.take 4)).le_toInt
  have hhi := (readInt32 (payload.take 4)).toInt_lt
  have hunits := Amount.units_ofUnits (n := (readInt32 (payload.take 4)).toInt)
    (by omega) (by omega)
  change (Amount.ofUnits _).units < minimumBalance.units ↔ _
  rw [hunits]
  rfl

theorem named_balance :
    ObjectId.named? "prepay_balance" = some ⟨.ofNat 0xffc802, "prepay_balance", .i32⟩ := by
  decide +kernel

theorem named_flag :
    ObjectId.named? "prepay_enabled_flag" = some ⟨.ofNat 0xffff0d, "prepay_enabled_flag", .u8⟩ := by
  decide +kernel

section Run

variable (peer : Peer) (line : Line) (s : Session) (w : Wire)

theorem run_enablePrepayment_true :
    (enablePrepayment true).run peer line s w = match balance.run peer line s w with
      | (.error e, s, w) => (.error e, s, w)
      | (.ok credit, s, w) =>
        if credit < minimumBalance then
          (.error (.argument (.lowBalance credit minimumBalance)), s, w)
        else (writeNamed "prepay_enabled_flag" [1]).run peer line s w := by
  have hon : enablePrepayment true = balance >>= fun credit =>
      if credit < minimumBalance then
        throw (.argument (.lowBalance credit minimumBalance)) >>= fun _ : PUnit =>
          writeNamed "prepay_enabled_flag" [1]
      else writeNamed "prepay_enabled_flag" [1] := rfl
  rw [hon, ClientM.run_bind]
  rcases balance.run peer line s w with ⟨e | credit, s', w'⟩
  · rfl
  · dsimp only
    split_ifs <;> rfl

/-- The read comes first, and what it brings decides the rest. -/
theorem run_enablePrepayment_chain :
    let out := (enablePrepayment true).run peer line s w
    ∃ reading rest, Chain peer line (reading :: rest) s w out.2.1 out.2.2
      ∧ reading.data = .readObject (.ofNat 0xffc802)
      ∧ Enabling (.ofNat 0xffff0d) reading.result rest out.1 := by
  intro out
  have hout : out = _ := run_enablePrepayment_true peer line s w
  rw [balance, readAmount, run_readNamed peer line amount? named_balance s w] at hout
  simp only [viewed_balance] at hout
  rcases hread : (transact (.readObject (.ofNat 0xffc802))).run peer line s w
    with ⟨e | frame, s', w'⟩ <;> simp only [hread, Except.bind] at hout
  · rw [hout]
    exact ⟨_, _, .cons hread (.nil s' w'), rfl, .unread e⟩
  · rcases hcredit : credit? frame.data.payload with _ | credit <;> simp only [hcredit] at hout
    · rw [hout]
      exact ⟨_, _, .cons hread (.nil s' w'), rfl, .short hcredit⟩
    · split_ifs at hout with hlow <;> rw [ofUnits_credit_lt_iff hcredit] at hlow
      · rw [hout]
        exact ⟨_, _, .cons hread (.nil s' w'), rfl, .low hcredit hlow⟩
      · rw [run_writeNamed peer line named_flag [1] s' w'] at hout
        rcases hwrite : (transact (.writeObject (.ofNat 0xffff0d) [1])).run peer line s' w'
          with ⟨result, s'', w''⟩
        rw [hwrite] at hout
        rw [hout]
        exact ⟨_, _, .cons hread (.cons hwrite (.nil s'' w'')), rfl,
          .enough hcredit (Int.not_lt.1 hlow) rfl⟩

/-- Switching prepayment on reads the balance, and writes a one to the flag if the answer carries a
sufficient balance; otherwise nothing follows the read and the call fails. Switching it off writes a
zero and does nothing else. Without a deadline each of these transactions sends its request. -/
theorem run_enablePrepayment :
    ∃ balance flag, object "prepay_balance" = .ok balance
      ∧ object "prepay_enabled_flag" = .ok flag
      ∧ (let out := (enablePrepayment true).run peer line s w
        ∃ reading rest, Chain peer line (reading :: rest) s w out.2.1 out.2.2
          ∧ reading.data = .readObject balance ∧ Enabling flag reading.result rest out.1
          ∧ out.2.2.requests
            = w.requests ++ (reading.requests ++ rest.flatMap Transacted.requests)
          ∧ ∀ tr ∈ reading :: rest,
            (line.settings.deadline = none → tr.requests ≠ []) ∧ tr.Carried)
      ∧ (let out := (enablePrepayment false).run peer line s w
        ∃ writing, Chain peer line [writing] s w out.2.1 out.2.2
          ∧ writing.data = .writeObject flag [0]
          ∧ out.1 = writing.result.map (fun _ => ())
          ∧ out.2.2.requests = w.requests ++ writing.requests
          ∧ (line.settings.deadline = none → writing.requests ≠ []) ∧ writing.Carried) := by
  refine ⟨_, _, object_eq named_balance, object_eq named_flag, ?_, ?_⟩
  · obtain ⟨reading, rest, hchain, hdata, hrest⟩ := run_enablePrepayment_chain peer line s w
    refine ⟨reading, rest, hchain, hdata, hrest, hchain.requests_eq,
      fun tr htr => hchain.requests_of_mem htr ?_⟩
    rcases List.mem_cons.1 htr with rfl | htr
    · rw [hdata]
      decide
    · rw [hrest.data_eq tr htr]
      decide
  · intro out
    have hout : out = _ := run_writeNamed peer line named_flag [0] s w
    rcases hwrite : (transact (.writeObject (.ofNat 0xffff0d) [0])).run peer line s w
      with ⟨result, s', w'⟩
    rw [hwrite] at hout
    rw [hout]
    have hchain : Chain peer line [_] s w s' w' := .cons hwrite (.nil s' w')
    have hsent := hchain.requests_eq
    rw [List.flatMap_singleton] at hsent
    exact ⟨_, hchain, rfl, rfl, hsent,
      hchain.requests_of_mem (List.mem_singleton_self _) (Nat.le_of_ble_eq_true rfl)⟩

end Run

end MeterLink.Meter

import Mathlib.Tactic.SplitIfs
import MeterLink.Meter.Tariff
import MeterLink.Proofs.Chains
import MeterLink.Proofs.ObjectCalls

/-!
# Programming a tariff

A flat tariff that the meter cannot hold is refused before anything is sent
(`FlatTariff.writes_cases`). One that it can hold is eleven writes, and the meter is left with
those that came before the first failure: the time of activation is set last.
-/

namespace MeterLink.Meter

open Dialogue (Peer Wire)

/-- A number that 32 bits hold. -/
def IsWord (n : Int) : Prop := 0 ≤ n ∧ n < 0x100000000

instance (n : Int) : Decidable (IsWord n) := by
  unfold IsWord; infer_instance

theorem fieldBytes_ofNat {n : Int} (h : IsWord n) :
    fieldBytes (UInt32.ofNat n.toNat) = littleEndian 4 n.toNat := by
  have hlt : n.toNat < UInt32.size := (Int.toNat_lt h.1).2 h.2
  rw [fieldBytes, UInt32.toNat_ofNat_of_lt' hlt]

theorem unsignedField_eq (a : Amount) : unsignedField a
    = if IsWord a.units then .ok (UInt32.ofNat a.units.toNat)
      else .error (.argument (.notUnsigned a)) := by
  have hunits : a.unsigned? = if IsWord a.units then some (UInt32.ofNat a.units.toNat) else none :=
    rfl
  rw [unsignedField, hunits]
  split_ifs <;> rfl

/-- Going on after a check. -/
theorem bind_check {α β : Type} {p : Prop} [Decidable p] (v : α) (e : Failure)
    (f : α → Except Failure β) :
    (if p then Except.ok v else .error e) >>= f = if p then f v else .error e := by
  split_ifs <;> rfl

namespace FlatTariff

/-- The unit rate is at most one and every value fits its field of the meter, which counts the
seconds since the start of 2000. -/
def Acceptable (t : FlatTariff) : Prop :=
  (0 ≤ t.unitRate.units ∧ t.unitRate.units ≤ 100000) ∧ IsWord t.emergencyCredit.units
    ∧ IsWord t.emergencyAvailability.units ∧ IsWord t.debtRecoveryRate.units
    ∧ IsWord t.standingCharge.units ∧ IsWord (t.activation.seconds - 946684800)

instance (t : FlatTariff) : Decidable t.Acceptable := by
  unfold Acceptable; infer_instance

/-- The objects that are written, with the payload of each. -/
def plan (t : FlatTariff) : List (String × Bytes) := [
  ("tariff_future_threshold_mask", [0]),
  ("tariff_future_threshold_values", List.replicate 14 0),
  ("tariff_future_tou_flag", [0]),
  ("tariff_future_block_8_rate_1", littleEndian 4 t.unitRate.units.toNat),
  ("tariff_future_element_b_tou_rate_1", littleEndian 4 t.unitRate.units.toNat),
  ("tariff_future_prepayment_emergency_credit", littleEndian 4 t.emergencyCredit.units.toNat),
  ("tariff_future_prepayment_ecredit_availability",
    littleEndian 4 t.emergencyAvailability.units.toNat),
  ("tariff_future_prepayment_debt_recovery_rate", littleEndian 4 t.debtRecoveryRate.units.toNat),
  ("tariff_future_gas", littleEndian 4 0),
  ("tariff_future_standing_charge", littleEndian 4 t.standingCharge.units.toNat),
  ("tariff_future_activation_datetime", littleEndian 4 (t.activation.seconds - 946684800).toNat)]

theorem writes_cases (t : FlatTariff) : (t.Acceptable ∧ t.writes = .ok t.plan)
    ∨ (¬ t.Acceptable ∧ ∃ fault, t.writes = .error (.argument fault)) := by
  have hone : ∀ a : Amount, a ≤ .one ↔ a.units ≤ 100000 := fun a => Iff.rfl
  have htime : Instant.toMeterSeconds t.activation
      = if IsWord (t.activation.seconds - 946684800)
        then .ok (UInt32.ofNat (t.activation.seconds - 946684800).toNat)
        else .error (.argument (.outsideMeterTime t.activation)) := rfl
  simp only [writes, checkedRate, unsignedField_eq, htime, bind_check, hone]
  split_ifs with hrate hunit hcredit havail hdebt hcharge hact
  · refine .inl ⟨⟨⟨hunit.1, hrate⟩, hcredit, havail, hdebt, hcharge, hact⟩, ?_⟩
    simp only [fieldBytes_ofNat hunit, fieldBytes_ofNat hcredit, fieldBytes_ofNat havail,
      fieldBytes_ofNat hdebt, fieldBytes_ofNat hcharge, fieldBytes_ofNat hact]
    rfl
  · exact .inr ⟨fun h => hact h.2.2.2.2.2, _, rfl⟩
  · exact .inr ⟨fun h => hcharge h.2.2.2.2.1, _, rfl⟩
  · exact .inr ⟨fun h => hdebt h.2.2.2.1, _, rfl⟩
  · exact .inr ⟨fun h => havail h.2.2.1, _, rfl⟩
  · exact .inr ⟨fun h => hcredit h.2.1, _, rfl⟩
  · exact .inr ⟨fun h => hunit ⟨h.1.1, by omega⟩, _, rfl⟩
  · exact .inr ⟨fun h => hrate h.1.2, _, rfl⟩

example : Acceptable ⟨⟨1735689600, 0⟩, .ofUnits 53000, .one, .ofUnits 500000, .zero, .zero⟩ := by
  decide

end FlatTariff

/-- The fields that write payloads to the objects with these names. -/
def fieldsOf (writes : List (String × Bytes)) : List DataField :=
  writes.filterMap fun (name, payload) =>
    (ObjectId.named? name).map fun e => .writeObject e.id payload

/-- The objects that programming a tariff writes, with the shape of each. -/
def plannedObjects : List (String × Shape) := [
  ("tariff_future_threshold_mask", .bits thresholdMaskLayout),
  ("tariff_future_threshold_values", .u16s 7), ("tariff_future_tou_flag", .u8),
  ("tariff_future_block_8_rate_1", .u32), ("tariff_future_element_b_tou_rate_1", .u32),
  ("tariff_future_prepayment_emergency_credit", .u32),
  ("tariff_future_prepayment_ecredit_availability", .u32),
  ("tariff_future_prepayment_debt_recovery_rate", .u32), ("tariff_future_gas", .u32),
  ("tariff_future_standing_charge", .u32), ("tariff_future_activation_datetime", .u32)]

theorem shape_of_planned : ∀ p ∈ plannedObjects,
    (ObjectId.named? p.1).map CatalogueEntry.shape = some p.2 := by
  decide +kernel

theorem names_plan (t : FlatTariff) : t.plan.map Prod.fst = plannedObjects.map Prod.fst := rfl

theorem named_plan (t : FlatTariff) : ∀ p ∈ t.plan, (ObjectId.named? p.1).isSome := by
  intro p hp
  obtain ⟨q, hq, hname⟩ := List.mem_map.1 (names_plan t ▸ List.mem_map_of_mem hp)
  rw [← hname, ← Option.isSome_map (f := CatalogueEntry.shape), shape_of_planned q hq]
  rfl

theorem length_fieldsOf {writes : List (String × Bytes)}
    (h : ∀ p ∈ writes, (ObjectId.named? p.1).isSome) :
    (fieldsOf writes).length = writes.length := by
  rw [fieldsOf, List.filterMap_length_eq_length]
  intro p hp
  rw [Option.isSome_map]
  exact h p hp

theorem size_of_mem_fieldsOf {writes : List (String × Bytes)} {n : Nat}
    (h : ∀ p ∈ writes, p.2.length ≤ n) : ∀ data ∈ fieldsOf writes, data.size ≤ 5 + n := by
  intro data hdata
  obtain ⟨p, hp, hdata⟩ := List.mem_filterMap.1 hdata
  obtain ⟨e, -, rfl⟩ := Option.map_eq_some_iff.1 hdata
  exact Nat.add_le_add_left (h p hp) 5

section Run

variable (peer : Peer) (line : Line)

/-- Writes go on until one fails. -/
theorem run_writeAll : ∀ (writes : List (String × Bytes)),
    (∀ p ∈ writes, (ObjectId.named? p.1).isSome) → ∀ (s : Session) (w : Wire),
      let out := ClientM.run (writes.forM fun (name, payload) => writeNamed name payload)
        peer line s w
      ∃ ts, Chain peer line ts s w out.2.1 out.2.2 ∧ GoesThrough (fieldsOf writes) ts out.1
  | [], _, s, w => ⟨[], .nil s w, .nil⟩
  | (name, payload) :: writes, hnamed, s, w => by
    obtain ⟨hname, hrest⟩ := List.forall_mem_cons.1 hnamed
    obtain ⟨entry, hentry⟩ : ∃ e, ObjectId.named? name = some e := Option.isSome_iff_exists.1 hname
    have hfields : fieldsOf ((name, payload) :: writes)
        = .writeObject entry.id payload :: fieldsOf writes := by
      simp only [fieldsOf, List.filterMap_cons, hentry, Option.map_some]
    intro out
    have hout : out = _ := ClientM.run_forM_cons peer line s w _ (name, payload) writes
    rw [run_writeNamed peer line hentry payload s w] at hout
    rw [hout, hfields]
    rcases hfirst : (transact (.writeObject entry.id payload)).run peer line s w
      with ⟨e | frame, s', w'⟩
    · exact ⟨_, .cons hfirst (.nil s' w'), .failed⟩
    · obtain ⟨ts, hchain, hthrough⟩ := run_writeAll writes hrest s' w'
      exact ⟨_, .cons hfirst hchain, .cons hthrough⟩

theorem run_writeFlatTariff_refused {t : FlatTariff} {e : Failure} (h : t.writes = .error e)
    (s : Session) (w : Wire) : (writeFlatTariff t).run peer line s w = (.error e, s, w) := by
  rw [writeFlatTariff, ClientM.run_bind, ClientM.run_lift, h]

theorem run_writeFlatTariff_accepted {t : FlatTariff} (h : t.writes = .ok t.plan) (s : Session)
    (w : Wire) : (writeFlatTariff t).run peer line s w
      = ClientM.run (t.plan.forM fun (name, payload) => writeNamed name payload) peer line s w := by
  rw [writeFlatTariff, ClientM.run_bind, ClientM.run_lift, h]

/-- A tariff is refused for what it asks and nothing is sent, or its eleven writes are made in
order, each after the one before it has succeeded, and a failure is that of the last one made. -/
theorem run_writeFlatTariff (t : FlatTariff) (s : Session) (w : Wire) :
    let out := (writeFlatTariff t).run peer line s w
    (¬ t.Acceptable → (∃ fault, out.1 = .error (.argument fault)) ∧ out.2 = (s, w))
      ∧ (t.Acceptable → (fieldsOf t.plan).length = 11
        ∧ ∃ ts, Chain peer line ts s w out.2.1 out.2.2 ∧ GoesThrough (fieldsOf t.plan) ts out.1
          ∧ out.2.2.requests = w.requests ++ ts.flatMap Transacted.requests
          ∧ ∀ tr ∈ ts, (line.settings.deadline = none → tr.requests ≠ [])
            ∧ ∀ request ∈ tr.requests, ∃ f, Frame.decodeVerified request = .ok f
              ∧ f.data = tr.data) := by
  intro out
  rcases t.writes_cases with ⟨hacc, hwrites⟩ | ⟨hacc, fault, hwrites⟩
  · refine ⟨fun h => absurd hacc h, fun _ => ⟨length_fieldsOf (named_plan t), ?_⟩⟩
    have hout : out = _ := run_writeFlatTariff_accepted peer line hwrites s w
    obtain ⟨ts, hchain, hthrough⟩ := run_writeAll peer line t.plan (named_plan t) s w
    rw [← hout] at hchain hthrough
    refine ⟨ts, hchain, hthrough, hchain.requests_eq, fun tr htr => ?_⟩
    have hmem : tr.data ∈ fieldsOf t.plan :=
      hthrough.inOrder.subset (List.mem_map_of_mem htr)
    have hpayload : ∀ p ∈ t.plan, p.2.length ≤ 14 := by
      simp [FlatTariff.plan, length_littleEndian]
    have hfit : tr.data.size ≤ 243 :=
      Nat.le_trans (size_of_mem_fieldsOf hpayload _ hmem) (by decide)
    exact hchain.requests_of_mem htr hfit
  · have hout : out = _ := run_writeFlatTariff_refused peer line hwrites s w
    exact ⟨fun _ => ⟨⟨fault, congrArg (·.1) hout⟩, congrArg (·.2) hout⟩, fun h => absurd h hacc⟩

end Run

end MeterLink.Meter

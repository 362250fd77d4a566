import MeterLink.Proofs.CatalogueAgreement
import MeterLink.Proofs.TruncatedAnswers

/-!
# The voltages of three phases

Without a deadline every transaction of a chain is known by its exchanges: those that were tried
again, and one whose outcome is the result (`Chain.took`). A truncated answer is never asked for
again, so it is that last one.

The first voltage must be had. The others may be missing if their answers end too early, and then
the call goes on; every other failure ends it (`PhasesRead`).
-/

namespace MeterLink

open Dialogue (Peer Wire)

/-! ## The exchanges of a transaction -/

/-- The exchanges of a transaction: those that were followed by another attempt, and the last. -/
structure Course where
  retried : List (Bytes × Exchange)
  last : Bytes × Exchange

def Course.exchanges (c : Course) : List (Bytes × Exchange) := c.retried ++ [c.last]

/-- The transaction went through these exchanges, and made another attempt exactly as long as one
was left and might succeed. The last outcome is the result. -/
structure Transacted.Took (line : Line) (tr : Transacted) (c : Course) : Prop where
  requests : tr.requests = c.exchanges.map Prod.fst
  retryable : ∀ p ∈ c.retried, line.settings.Retryable p.2.outcome
  within : c.exchanges.length ≤ line.settings.attempts
  settled : c.exchanges.length < line.settings.attempts →
    ¬ line.settings.Retryable c.last.2.outcome
  result : tr.result = line.resultOf c.last.2.outcome

theorem took_of_transact (peer : Peer) {line : Line} (ht : line.settings.deadline = none)
    {data : DataField} (hfit : data.size ≤ 243) {s s' : Session} {w w' : Wire}
    {result : Except Failure Frame}
    (h : (transact data).run peer line s w = (result, s', w')) :
    ∃ c, Transacted.Took line ⟨data, w'.requests.drop w.requests.length, result⟩ c
      ∧ w'.exchanges = w.exchanges ++ c.exchanges := by
  let request := data.requestBytes (s.nextControl line.settings.sequence).1
  let made (i : Nat) : Bytes × Exchange :=
    (request, w.repeated peer request i)
  obtain ⟨last, hle, s₁, w₁, hbefore, hstop, hrun, hex⟩ := run_attemptAll peer request
    (line.begun peer s w).clock (line.settings.attempts - 1) (s.opened line.settings.sequence)
    (line.begun peer s w) ht
  rw [run_transact_fits hfit hrun] at h
  cases h
  have hattempts : 1 ≤ line.settings.attempts := Nat.le_max_left ..
  let c : Course := ⟨(List.range last).map made, made last⟩
  have hlen : c.exchanges.length = last + 1 := by simp [c, Course.exchanges]
  have hexchanges : w'.exchanges = w.exchanges ++ c.exchanges := by
    rw [hex, List.range_succ, List.map_append]
    rfl
  refine ⟨c, ⟨?_, ?_, by omega, ?_, rfl⟩, hexchanges⟩
  · rw [Wire.requests, Wire.requests, hexchanges, List.map_append]
    exact List.drop_left
  · intro p hp
    obtain ⟨i, hi, rfl⟩ := List.mem_map.1 hp
    exact hbefore i (List.mem_range.1 hi)
  · intro hlt
    exact hstop (by omega)

/-- The exchanges on the wire are those of the transactions, one after the other. -/
theorem Chain.took {peer : Peer} {line : Line} (ht : line.settings.deadline = none)
    {ts : List Transacted} {s s' : Session} {w w' : Wire} (h : Chain peer line ts s w s' w')
    (hfit : ∀ tr ∈ ts, tr.data.size ≤ 243) : ∃ cs, List.Forall₂ (Transacted.Took line) ts cs
      ∧ w'.exchanges = w.exchanges ++ cs.flatMap Course.exchanges := by
  induction h with
  | nil => exact ⟨[], .nil, (List.append_nil _).symm⟩
  | cons first rest ih =>
    rw [List.forall_mem_cons] at hfit
    obtain ⟨c, hc, hex⟩ := took_of_transact peer ht hfit.1 first
    obtain ⟨cs, hcs, hexs⟩ := ih hfit.2
    refine ⟨c :: cs, .cons hc hcs, ?_⟩
    rw [hexs, hex, List.flatMap_cons, List.append_assoc]

/-! ## Voltages -/

/-- The voltage in the first two bytes of a payload. -/
def voltageOf (payload : Bytes) : Except Failure Meter.Voltage :=
  if 2 ≤ payload.length then .ok ⟨UInt32.ofNat (ofLittleEndian (payload.take 2))⟩
  else .error (.codec (.truncated 2 payload.length))

/-- The voltage that a transaction brought. -/
def Transacted.voltage (tr : Transacted) : Except Failure Meter.Voltage :=
  tr.result.bind fun frame => voltageOf frame.data.payload

/-- The transaction is the read of a voltage. Two bytes of an answer have it, an answer that ends
before them is truncated and is not asked for again, and a link that fails to the last is no
truncation. -/
structure Transacted.TookVoltage (line : Line) (tr : Transacted) (c : Course) : Prop
    extends tr.Took line c where
  value : ∀ v, tr.voltage = .ok v → ∃ frame, tr.result = .ok frame
    ∧ 2 ≤ frame.data.payload.length
    ∧ v.tenths.toNat = ofLittleEndian (frame.data.payload.take 2)
  cutShort_iff : ∀ reply, c.last.2.outcome = .ok reply →
    (Truncates tr.voltage ↔ line.settings.CutShort 2 reply)
  once : Truncates tr.voltage → ¬ line.settings.Retryable c.last.2.outcome
  unreachable : ∀ endpoint phase fault, c.last.2.outcome = .error (.transport endpoint phase fault) →
    tr.voltage = .error (.unreachable line.endpoint line.settings.attempts
      (.transport endpoint phase fault))

theorem truncates_voltageOf_iff (payload : Bytes) :
    Truncates (voltageOf payload) ↔ payload.length < 2 := by
  rw [voltageOf]
  split_ifs with h
  · exact iff_of_false (by simp [Truncates]) (Nat.not_lt.2 h)
  · exact iff_of_true ⟨_, rfl, trivial⟩ (Nat.lt_of_not_le h)

theorem voltageOf_eq_ok {payload : Bytes} {v : Meter.Voltage} (h : voltageOf payload = .ok v) :
    2 ≤ payload.length ∧ v.tenths.toNat = ofLittleEndian (payload.take 2) := by
  unfold voltageOf at h
  split_ifs at h with hlong
  cases h
  have hlt := ofLittleEndian_lt (payload.take 2)
  rw [List.length_take_of_le hlong] at hlt
  exact ⟨hlong, UInt32.toNat_ofNat_of_lt' (Nat.lt_trans hlt (by decide))⟩

theorem Transacted.Took.tookVoltage {line : Line} {tr : Transacted} {c : Course}
    (h : tr.Took line c) : tr.TookVoltage line c := by
  have hvoltage : tr.voltage = (line.resultOf c.last.2.outcome).bind fun frame =>
      voltageOf frame.data.payload := by rw [Transacted.voltage, h.result]
  refine ⟨h, fun v hv => ?_, fun reply hreply => ?_, ?_, fun endpoint phase fault hfault => ?_⟩
  · rcases hframe : tr.result with e | frame
    · rw [Transacted.voltage, hframe] at hv
      cases hv
    · rw [Transacted.voltage, hframe] at hv
      exact ⟨frame, rfl, voltageOf_eq_ok hv⟩
  · rw [hvoltage, hreply]
    exact truncates_iff_cutShort truncates_voltageOf_iff line.settings reply
  · rw [hvoltage]
    rintro ⟨e, he, htrunc⟩ (⟨endpoint, phase, fault, hout⟩ | ⟨reply, fault, hout, hread, hcorrupt⟩)
    · rw [hout] at he
      cases he
      exact htrunc
    · rw [hout, Line.resultOf, hread] at he
      cases he
      rcases hcorrupt with ⟨_, rfl⟩ | ⟨_, rfl⟩ | ⟨_, _, rfl⟩ <;> exact htrunc
  · rw [hvoltage, hfault]
    rfl

namespace Meter

theorem viewed_voltage {id : ObjectId} (hshape : id.shape = .u16) (payload : Bytes) :
    (viewed Record.unsigned? id payload).map Voltage.mk = voltageOf payload := by
  by_cases h : 2 ≤ payload.length
  · have hlt := ofLittleEndian_lt (payload.take 2)
    rw [List.length_take_of_le h] at hlt
    have hdec : id.decodePayload payload
        = .ok (.u16 (UInt16.ofNat (ofLittleEndian (payload.take 2)))) := by
      rw [ObjectId.decodePayload, hshape, Record.decode, takeExact_eq_ok_iff.2 ⟨h, rfl⟩]
      rfl
    have hview : Record.unsigned? (.u16 (UInt16.ofNat (ofLittleEndian (payload.take 2))))
        = some (UInt32.ofNat (ofLittleEndian (payload.take 2))) := by
      refine congrArg some (UInt32.toNat_inj.1 ?_)
      rw [UInt16.toNat_toUInt32, UInt16.toNat_ofNat_of_lt' hlt,
        UInt32.toNat_ofNat_of_lt' (Nat.lt_trans hlt (by decide))]
    rw [viewed_ok hdec hview, voltageOf, if_pos h]
    rfl
  · have hwidth : id.shape.width? = some 2 := by rw [hshape]; rfl
    rw [viewed_short hwidth (Nat.lt_of_not_le h), voltageOf, if_neg h]
    rfl

/-- What becomes of the voltage of a phase that may be missing. -/
inductive PhaseRead : Except Failure Voltage → Except Failure (Option Voltage) → Prop
  | had (v : Voltage) : PhaseRead (.ok v) (.ok (some v))
  | cutShort {e : Failure} (h : e.IsTruncation) : PhaseRead (.error e) (.ok none)
  | failed {e : Failure} (h : ¬ e.IsTruncation) : PhaseRead (.error e) (.error e)

/-- The voltages that are read, up to the one that ends the call, and its result. -/
inductive PhasesRead : List (Except Failure Voltage) → Except Failure PhaseVoltages → Prop
  | l1Failed (e : Failure) : PhasesRead [.error e] (.error e)
  | l2Failed (v₁ : Voltage) {e : Failure} (h : ¬ e.IsTruncation) :
    PhasesRead [.ok v₁, .error e] (.error e)
  | l3Failed (v₁ : Voltage) {r₂ : Except Failure Voltage} {p₂ : Option Voltage} {e : Failure}
    (l2 : PhaseRead r₂ (.ok p₂)) (h : ¬ e.IsTruncation) :
    PhasesRead [.ok v₁, r₂, .error e] (.error e)
  | all (v₁ : Voltage) {r₂ r₃ : Except Failure Voltage} {p₂ p₃ : Option Voltage}
    (l2 : PhaseRead r₂ (.ok p₂)) (l3 : PhaseRead r₃ (.ok p₃)) :
    PhasesRead [.ok v₁, r₂, r₃] (.ok ⟨v₁, p₂, p₃⟩)

section Run

variable {peer : Peer} {line : Line} {name : String} {id : ObjectId}

theorem makes_readVoltage (hid : object name = .ok id) (hshape : id.shape = .u16) :
    Makes peer line (readVoltage name) fun ts r =>
      ∃ tr, ts = [tr] ∧ tr.data = .readObject id ∧ r = tr.voltage := by
  have hrun : ∀ s w, let out := (transact (.readObject id)).run peer line s w
      (readVoltage name).run peer line s w
        = (out.1.bind fun frame => voltageOf frame.data.payload, out.2) := by
    intro s w out
    have hread : (readUnsigned name).run peer line s w
        = (out.1.bind fun frame => viewed Record.unsigned? id frame.data.payload, out.2) := by
      rw [readUnsigned, readNamed, ClientM.run_bind, ClientM.run_lift, hid]
      exact run_readView peer line Record.unsigned? id s w
    have hmap : (readVoltage name).run peer line s w
        = (((readUnsigned name).run peer line s w).1.map Voltage.mk,
          ((readUnsigned name).run peer line s w).2) := ClientM.run_map ..
    rw [hmap, hread]
    rcases out.1 with e | frame
    · rfl
    · exact congrArg (·, out.2) (viewed_voltage hshape frame.data.payload)
  refine .mono (.of_transact hrun) fun ts r h => ?_
  obtain ⟨requests, result, rfl, rfl⟩ := h
  exact ⟨_, rfl, rfl, rfl⟩

theorem makes_readVoltage? (hid : object name = .ok id) (hshape : id.shape = .u16) :
    Makes peer line (readVoltage? name) fun ts r =>
      ∃ tr, ts = [tr] ∧ tr.data = .readObject id ∧ PhaseRead tr.voltage r := by
  have hread : Makes peer line (do return some (← readVoltage name)) fun ts r =>
      ∃ tr, ts = [tr] ∧ tr.data = .readObject id ∧ r = tr.voltage.map some := by
    refine .bind (makes_readVoltage hid hshape) (fun ts v h => .pure ?_) fun ts e h => ?_
    · obtain ⟨tr, rfl, hdata, hv⟩ := h
      exact ⟨tr, rfl, hdata, by rw [← hv]; rfl⟩
    · obtain ⟨tr, rfl, hdata, he⟩ := h
      exact ⟨tr, rfl, hdata, by rw [← he]; rfl⟩
  refine .tryCatch hread (fun ts p h => ?_) fun ts e h => ?_
  · obtain ⟨tr, rfl, hdata, hp⟩ := h
    refine ⟨tr, rfl, hdata, ?_⟩
    rcases hvoltage : tr.voltage with e | v
    · rw [hvoltage] at hp
      cases hp
    · rw [hvoltage] at hp
      cases hp
      exact .had v
  · obtain ⟨tr, rfl, hdata, he⟩ := h
    have hvoltage : tr.voltage = .error e := by
      rcases hvoltage : tr.voltage with e' | v
      · rw [hvoltage] at he
        cases he
        rfl
      · rw [hvoltage] at he
        cases he
    split_ifs with htrunc
    · exact .pure ⟨tr, rfl, hdata, hvoltage ▸ .cutShort htrunc⟩
    · exact .throw ⟨tr, rfl, hdata, hvoltage ▸ .failed htrunc⟩

variable {l1 l2 l3 : ObjectId}

theorem makes_phaseVoltages (h1 : object "three_phase_instantaneous_voltage_l1" = .ok l1)
    (h2 : object "three_phase_instantaneous_voltage_l2" = .ok l2)
    (h3 : object "three_phase_instantaneous_voltage_l3" = .ok l3)
    (hs1 : l1.shape = .u16) (hs2 : l2.shape = .u16) (hs3 : l3.shape = .u16) :
    Makes peer line phaseVoltages fun ts r =>
      ts.map Transacted.data <+: [.readObject l1, .readObject l2, .readObject l3]
        ∧ PhasesRead (ts.map Transacted.voltage) r := by
  refine .bind (makes_readVoltage h1 hs1) (fun ts v₁ h => ?_) fun ts e h => ?_
  · obtain ⟨tr₁, rfl, hd₁, hv₁⟩ := h
    refine .bind (makes_readVoltage? h2 hs2) (fun ts p₂ h => ?_) fun ts e h => ?_
    · obtain ⟨tr₂, rfl, hd₂, hp₂⟩ := h
      refine .bind (makes_readVoltage? h3 hs3) (fun ts p₃ h => .pure ?_) fun ts e h => ?_
      · obtain ⟨tr₃, rfl, hd₃, hp₃⟩ := h
        simp only [List.append_nil, List.singleton_append, List.map_cons, List.map_nil, hd₁, hd₂,
          hd₃, ← hv₁]
        exact ⟨List.prefix_refl _, .all v₁ hp₂ hp₃⟩
      · obtain ⟨tr₃, rfl, hd₃, hp₃⟩ := h
        simp only [List.singleton_append, List.map_cons, List.map_nil, hd₁, hd₂, hd₃, ← hv₁]
        refine ⟨List.prefix_refl _, ?_⟩
        generalize tr₃.voltage = r₃ at hp₃ ⊢
        cases hp₃ with
        | failed hhard => exact .l3Failed v₁ hp₂ hhard
    · obtain ⟨tr₂, rfl, hd₂, hp₂⟩ := h
      simp only [List.singleton_append, List.map_cons, List.map_nil, hd₁, hd₂, ← hv₁]
      refine ⟨⟨[.readObject l3], rfl⟩, ?_⟩
      generalize tr₂.voltage = r₂ at hp₂ ⊢
      cases hp₂ with
      | failed hhard => exact .l2Failed v₁ hhard
  · obtain ⟨tr₁, rfl, hd₁, hv₁⟩ := h
    simp only [List.map_cons, List.map_nil, hd₁, ← hv₁]
    exact ⟨⟨[.readObject l2, .readObject l3], rfl⟩, .l1Failed e⟩

/-- Without a deadline the voltages are read in their order, and the first must be had. One of the
others is missing if its answer ends too early, which is not asked for again; every other failure
ends the call, with nothing sent after it. -/
theorem phaseVoltages_tolerates (peer : Peer) {line : Line} (ht : line.settings.deadline = none)
    (s : Session) (w : Wire) : ∃ l1 l2 l3,
      (object "three_phase_instantaneous_voltage_l1" = .ok l1
        ∧ object "three_phase_instantaneous_voltage_l2" = .ok l2
        ∧ object "three_phase_instantaneous_voltage_l3" = .ok l3)
      ∧ let out := phaseVoltages.run peer line s w
        ∃ ts cs, Chain peer line ts s w out.2.1 out.2.2
          ∧ ts.map Transacted.data <+: [.readObject l1, .readObject l2, .readObject l3]
          ∧ PhasesRead (ts.map Transacted.voltage) out.1
          ∧ List.Forall₂ (Transacted.TookVoltage line) ts cs
          ∧ out.2.2.exchanges = w.exchanges ++ cs.flatMap Course.exchanges := by
  obtain ⟨l1, h1, hs1⟩ := @object_of_used "three_phase_instantaneous_voltage_l1" .u16
    (by simp [usedObjects])
  obtain ⟨l2, h2, hs2⟩ := @object_of_used "three_phase_instantaneous_voltage_l2" .u16
    (by simp [usedObjects])
  obtain ⟨l3, h3, hs3⟩ := @object_of_used "three_phase_instantaneous_voltage_l3" .u16
    (by simp [usedObjects])
  obtain ⟨ts, hchain, hdata, hread⟩ := makes_phaseVoltages h1 h2 h3 hs1 hs2 hs3 s w
  have hfit : ∀ tr ∈ ts, tr.data.size ≤ 243 := by
    intro tr htr
    have hmem := hdata.subset (List.mem_map_of_mem htr)
    simp only [List.mem_cons, List.not_mem_nil, or_false] at hmem
    rcases hmem with h | h | h <;> simp [h]
  obtain ⟨cs, htook, hex⟩ := hchain.took ht hfit
  exact ⟨l1, l2, l3, ⟨h1, h2, h3⟩, ts, cs, hchain, hdata, hread,
    htook.imp fun _ _ => Transacted.Took.tookVoltage, hex⟩

/-- The first voltage is answered, the second at the second attempt with a frame that lacks its last
byte, the third in full. -/
theorem phaseVoltages_tolerates_short :
    let line : Line := ⟨"meter", { verifyChecksum := false }⟩
    let frame (payload : Bytes) : Bytes :=
      [0x7e, 0x13, 0, 0, 0, 0, 0, 0, 0, 0, 5, 1, 0x20, 0x07, 0, 0] ++ payload ++ [0, 0]
    let peer := Dialogue.Peer.ofList [.answered (frame [0x61, 0x09]),
      .failed "meter" .connect ⟨.other, "refused"⟩, .answered ((frame [0x5f, 0x09]).take 19)]
      (.answered (frame [0x65, 0x09]))
    let out := phaseVoltages.run peer line {} .fresh
    out.1 = .ok ⟨⟨2401⟩, none, some ⟨2405⟩⟩ ∧ out.2.2.exchanges.length = 4
      ∧ ∃ ts cs, ts.length = 3 ∧ (cs.flatMap Course.exchanges).length = 4
        ∧ List.Forall₂ (Transacted.TookVoltage line) ts cs := by
  intro line frame peer out
  have hok : out.1 = .ok ⟨⟨2401⟩, none, some ⟨2405⟩⟩ := by decide +kernel
  have hcount : out.2.2.exchanges.length = 4 := by decide +kernel
  obtain ⟨l1, l2, l3, -, ts, cs, -, -, hread, htook, hex⟩ :=
    @phaseVoltages_tolerates peer line rfl {} .fresh
  have hlen : ts.length = 3 := by
    rw [show (phaseVoltages.run peer line {} .fresh).1 = _ from hok] at hread
    rw [← List.length_map Transacted.voltage]
    generalize ts.map Transacted.voltage = voltages at hread ⊢
    cases hread
    rfl
  have hmade : out.2.2.exchanges = cs.flatMap Course.exchanges := hex
  exact ⟨hok, hcount, ts, cs, hlen, hmade ▸ hcount, htook⟩

end Run

end Meter

end MeterLink

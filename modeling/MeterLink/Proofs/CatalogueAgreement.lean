import MeterLink.Meter.Identity
import MeterLink.Meter.Telemetry
import MeterLink.Proofs.CallSpecs
import MeterLink.Proofs.PrepaymentGuard
import MeterLink.Proofs.TariffProgramming

/-!
# Calls and the catalogue agree

The calls of a meter name their objects and count on the kind of value that each holds. The
catalogue has all of these names, with shapes that every value of the expected kind and no other is
read in (`shape_of_used`, `Shape.ShownBy`), so what the meter answers cannot make a call fail for
want of a name or on account of the kind of a value (`MeterCall.foresees`). Numbers that calls keep
in a byte come from objects whose shape leaves them no more than a byte.
-/

namespace MeterLink

open Dialogue (Peer Wire)
open Failure (Foreseen)

namespace Shape

theorem shownBy_text : (Shape.ascii .remainder).ShownBy Record.text? := by
  rintro _ _ ⟨⟩
  exact ⟨_, rfl⟩

theorem shownBy_rest : Shape.raw.ShownBy Record.block? := by
  rintro _ _ ⟨⟩
  exact ⟨_, rfl⟩

theorem shownBy_block (n : Nat) : (Shape.block (.fixed n)).ShownBy Record.block? := by
  rintro _ _ ⟨⟩
  exact ⟨_, rfl⟩

theorem shownBy_clock : Shape.clock.ShownBy (fun | .clock t => some t | _ => none) := by
  rintro _ _ ⟨⟩
  exact ⟨_, rfl⟩

theorem shownBy_payment : Shape.payment.ShownBy (fun | .payment p => some p | _ => none) := by
  rintro _ _ ⟨⟩
  exact ⟨_, rfl⟩

theorem shownBy_bits (layout : List BitField) : (Shape.bits layout).ShownBy Record.bits? := by
  rintro _ _ ⟨⟩
  exact ⟨_, rfl⟩

theorem shownBy_u16s (n : Nat) :
    (Shape.u16s n).ShownBy (fun | .u16s vs => some vs | _ => none) := by
  rintro _ _ ⟨⟩
  exact ⟨_, rfl⟩

/-- The shape is one of an unsigned number. -/
def IsUnsigned (shape : Shape) : Prop := shape = .u8 ∨ shape = .u16 ∨ shape = .u32

theorem IsUnsigned.shownBy {shape : Shape} (h : shape.IsUnsigned) :
    shape.ShownBy Record.unsigned? := by
  rcases h with rfl | rfl | rfl <;> rintro _ _ ⟨⟩ <;> exact ⟨_, rfl⟩

theorem shownBy_amount {shape : Shape} (h : shape = .i32 ∨ shape = .u32) :
    shape.ShownBy Meter.amount? := by
  rcases h with rfl | rfl <;> rintro _ _ ⟨⟩ <;> exact ⟨_, rfl⟩

end Shape

namespace Meter

/-- The objects that calls name, with the shapes that they count on. -/
def usedObjects : List (String × Shape) := plannedObjects ++ [
  ("serial", .ascii .remainder), ("hardware_version", .ascii .remainder),
  ("firmware_version", .raw), ("time", .clock), ("csq_net_op", .bits signalLayout),
  ("instantaneous_voltage", .u16), ("three_phase_instantaneous_voltage_l1", .u16),
  ("three_phase_instantaneous_voltage_l2", .u16), ("three_phase_instantaneous_voltage_l3", .u16),
  ("prepay_balance", .i32), ("prepay_enabled_flag", .u8), ("prepay_token_send", .empty),
  ("monetary_info_transaction_count", .u16), ("monetary_info_transaction_details", .payment),
  ("tariff_active_standing_charge", .u32),
  ("tariff_active_threshold_mask", .bits thresholdMaskLayout),
  ("tariff_active_threshold_values", .u16s 7), ("tariff_active_block_8_rate_1", .u32),
  ("tariff_active_price", .u32), ("tariff_active_block_rate_current", .u8),
  ("tariff_active_tou_rate_current", .u8), ("tariff_active_element_b_price", .u32),
  ("tariff_active_element_b_tou_rate_current", .u8),
  ("tariff_active_prepayment_emergency_credit", .u32),
  ("tariff_active_prepayment_ecredit_availability", .u32),
  ("tariff_active_prepayment_debt_recovery_rate", .u32),
  ("tariff_time_switch_element_a_or_single", .block (.fixed 80)),
  ("tariff_time_switch_element_b", .block (.fixed 80))]

theorem shape_of_used : ∀ p ∈ usedObjects,
    (ObjectId.named? p.1).map CatalogueEntry.shape = some p.2 :=
  List.forall_mem_append.2 ⟨shape_of_planned, by decide +kernel⟩

/-- A name that a call uses is that of an object with the shape that it counts on. -/
theorem object_of_used {name : String} {shape : Shape} (h : (name, shape) ∈ usedObjects) :
    ∃ id, object name = .ok id ∧ id.shape = shape := by
  obtain ⟨e, he, hshape⟩ := Option.map_eq_some_iff.1 (shape_of_used _ h)
  exact ⟨e.id, object_eq he, by rw [ObjectId.shape_of_named? he, hshape]⟩

theorem shape_of_price (active : Bool) : ∀ block ∈ List.range' 1 8, ∀ rate ∈ List.range' 1 8,
    (ObjectId.blockRate? active block rate).map ObjectId.shape = some .u32 := by
  cases active <;> decide +kernel

/-- One of the transactions read the object with this name, and the view shows this of it. -/
def Brought {α : Type} (ts : List Transacted) (name : String) (view : Record → Option α) (a : α) :
    Prop :=
  ∃ id, object name = .ok id ∧ Showed ts id view a

@[simp]
theorem brought_append {α : Type} {ts ts' : List Transacted} {name : String}
    {view : Record → Option α} {a : α} :
    Brought (ts ++ ts') name view a ↔ Brought ts name view a ∨ Brought ts' name view a := by
  simp only [Brought, showed_append, and_or_left, exists_or]

theorem Brought.writtenAs {α : Type} {ts : List Transacted} {name : String} {shape : Shape}
    {view : Record → Option α} {a : α} (h : Brought ts name view a)
    (hname : (name, shape) ∈ usedObjects) :
    ∃ record bs, Record.WrittenAs shape record bs ∧ view record = some a := by
  obtain ⟨id, hid, hshowed⟩ := h
  obtain ⟨id', hid', rfl⟩ := object_of_used hname
  obtain rfl : id = id' := Except.ok.inj (hid.symm.trans hid')
  exact hshowed.writtenAs

/-- The byte is the whole of a number that was read. -/
def Kept (ts : List Transacted) (name : String) (view : Record → Option UInt32) (b : UInt8) :
    Prop :=
  ∃ v, Brought ts name view v ∧ b.toNat = v.toNat

@[simp]
theorem kept_append {ts ts' : List Transacted} {name : String} {view : Record → Option UInt32}
    {b : UInt8} : Kept (ts ++ ts') name view b ↔ Kept ts name view b ∨ Kept ts' name view b := by
  simp only [Kept, brought_append, or_and_right, exists_or]

theorem toNat_toUInt8_of_lt {v : UInt32} (h : v.toNat < 256) : v.toUInt8.toNat = v.toNat :=
  Nat.mod_eq_of_lt h

/-- The number of an object of one byte is kept in a byte. -/
theorem Brought.kept {ts : List Transacted} {name : String} {v : UInt32}
    (h : Brought ts name Record.unsigned? v) (hname : (name, .u8) ∈ usedObjects) :
    Kept ts name Record.unsigned? v.toUInt8 := by
  obtain ⟨record, bs, hwritten, hview⟩ := h.writtenAs hname
  cases hwritten with
  | u8 b =>
    obtain rfl : b.toUInt32 = v := Option.some.inj hview
    exact ⟨_, h, toNat_toUInt8_of_lt b.toNat_lt⟩

section Calls

variable {peer : Peer} (hlink : peer.IsLink) {line : Line} {α : Type} {name : String}
  {shape : Shape}

include hlink

theorem foresees_readNamed {view : Record → Option α} (hname : (name, shape) ∈ usedObjects)
    (hview : shape.ShownBy view) :
    Foresees peer line (readNamed view name) fun ts a => Brought ts name view a := by
  obtain ⟨id, hid, rfl⟩ := object_of_used hname
  exact .ok_bind hid (.mono (.readView hlink hview) fun ts a ha => ⟨id, hid, ha⟩)

theorem foresees_writeNamed (hname : (name, shape) ∈ usedObjects) (payload : Bytes) :
    Foresees peer line (writeNamed name payload) fun _ _ => True := by
  obtain ⟨id, hid, -⟩ := object_of_used hname
  exact .ok_bind hid (.bind (.writePayload hlink id payload) fun _ _ _ => .pure trivial)

theorem foresees_readUnsigned (hname : (name, shape) ∈ usedObjects) (hshape : shape.IsUnsigned) :
    Foresees peer line (readUnsigned name) fun ts v => Brought ts name Record.unsigned? v :=
  foresees_readNamed hlink hname hshape.shownBy

theorem foresees_readAmount (hname : (name, shape) ∈ usedObjects)
    (hshape : shape = .i32 ∨ shape = .u32) :
    Foresees peer line (readAmount name) fun _ _ => True :=
  .mono (foresees_readNamed hlink hname (Shape.shownBy_amount hshape)) fun _ _ _ => trivial

/-! ## Telemetry -/

theorem foresees_setClock (t : Instant) : Foresees peer line (setClock t) fun _ _ => True := by
  have hreading : FailsAs Foreseen (ClockReading.ofInstant t) := .ite (.ok _) (.error trivial)
  obtain ⟨id, hid, hshape⟩ := @object_of_used "time" .clock (by simp [usedObjects])
  refine .lift_bind hreading fun reading _ => .ok_bind hid ?_
  have hpayload : id.encodePayload (.clock reading) = .ok (writeClock reading) := by
    rw [ObjectId.encodePayload, hshape]
    rfl
  exact .writeRecord hlink hpayload

/-- A field of a packed record. -/
def bitView (field : String) (record : Record) : Option UInt32 :=
  record.bits?.bind fun fields => bitField? fields field

omit hlink in
/-- The fields of the signal's record are those of its layout, in their order. -/
theorem signal_fields {fields : List (String × UInt32)} {bs : Bytes}
    (h : Record.WrittenAs (.bits signalLayout) (.bits fields) bs) : ∃ networkOperator csq,
      fields = [("network_operator", networkOperator), ("csq", csq)]
        ∧ networkOperator.toNat < 8 ∧ csq.toNat < 32 := by
  cases h with
  | bits hnames hfit =>
    match fields, hnames, hfit with
    | [(_, networkOperator), (_, csq)], hnames, .cons hop (.cons hcsq .nil) =>
      simp only [signalLayout, List.map_cons, List.map_nil, List.cons.injEq, and_true] at hnames
      obtain ⟨rfl, rfl⟩ := hnames
      exact ⟨networkOperator, csq, rfl, hop, hcsq⟩

theorem foresees_signalQuality : Foresees peer line signalQuality fun ts q =>
    Kept ts "csq_net_op" (bitView "csq") q.csq
      ∧ Kept ts "csq_net_op" (bitView "network_operator") q.networkOperator := by
  obtain ⟨id, hid, hshape⟩ :=
    @object_of_used "csq_net_op" (.bits signalLayout) (by simp [usedObjects])
  have hview : id.shape.ShownBy Record.bits? := hshape ▸ Shape.shownBy_bits signalLayout
  refine .ok_bind hid (.bind (.readView hlink hview) fun ts fields hshowed => ?_)
  obtain ⟨record, bs, hwritten, hfields⟩ := hshowed.writtenAs
  rw [hshape] at hwritten
  cases hwritten with
  | bits hnames hfit =>
    obtain rfl := Option.some.inj hfields
    obtain ⟨networkOperator, csq, rfl, hop, hcsq⟩ := signal_fields (.bits hnames hfit)
    refine .ok_bind (b := csq.toUInt8) rfl (.ok_bind (b := networkOperator.toUInt8) rfl (.pure ?_))
    rw [List.append_nil]
    have hfield {field : String} {v : UInt32}
        (hv : bitField? [("network_operator", networkOperator), ("csq", csq)] field = some v) :
        Showed ts id (bitView field) v := by
      refine hshowed.imp fun record hrecord => ?_
      rw [bitView, hrecord]
      exact hv
    exact ⟨⟨csq, ⟨id, hid, hfield rfl⟩, toNat_toUInt8_of_lt (by omega)⟩,
      ⟨networkOperator, ⟨id, hid, hfield rfl⟩, toNat_toUInt8_of_lt (by omega)⟩⟩

theorem foresees_readVoltage (hname : (name, .u16) ∈ usedObjects) :
    Foresees peer line (readVoltage name) fun _ _ => True :=
  .bind (foresees_readUnsigned hlink hname (.inr (.inl rfl))) fun _ _ _ => .pure trivial

theorem foresees_readVoltage? (hname : (name, .u16) ∈ usedObjects) :
    Foresees peer line (readVoltage? name) fun _ _ => True := by
  have hread : Foresees peer line (do return some (← readVoltage name)) fun _ _ => True :=
    .bind (foresees_readVoltage hlink hname) fun _ _ _ => .pure trivial
  refine .tryCatch hread fun ts e he => ?_
  split_ifs
  · exact .pure trivial
  · exact .throw he

/-! ## Tariffs -/

theorem foresees_readThresholds {mask values : String}
    (hmask : (mask, .bits thresholdMaskLayout) ∈ usedObjects)
    (hvalues : (values, .u16s 7) ∈ usedObjects) :
    Foresees peer line (readThresholds mask values) fun _ _ => True :=
  .bind (foresees_readNamed hlink hmask (Shape.shownBy_bits _)) fun _ _ _ =>
    .bind (foresees_readNamed hlink hvalues (Shape.shownBy_u16s 7)) fun _ _ _ => .pure trivial

theorem foresees_activeTariff : Foresees peer line activeTariff fun ts t =>
    Kept ts "tariff_active_block_rate_current" Record.unsigned? t.blockRate
      ∧ Kept ts "tariff_active_tou_rate_current" Record.unsigned? t.touRate
      ∧ Kept ts "tariff_active_element_b_tou_rate_current" Record.unsigned? t.elementBTouRate := by
  have hblock : ("tariff_active_block_rate_current", Shape.u8) ∈ usedObjects := by
    simp [usedObjects]
  have htou : ("tariff_active_tou_rate_current", Shape.u8) ∈ usedObjects := by simp [usedObjects]
  have hb : ("tariff_active_element_b_tou_rate_current", Shape.u8) ∈ usedObjects := by
    decide +kernel
  refine .bind (foresees_readAmount hlink (by simp [usedObjects]) (.inr rfl)) fun _ _ _ => ?_
  refine .bind (foresees_readThresholds hlink (by simp [usedObjects]) (by simp [usedObjects]))
    fun _ _ _ => ?_
  refine .bind (foresees_readAmount hlink (by simp [usedObjects]) (.inr rfl)) fun _ _ _ => ?_
  refine .bind (foresees_readAmount hlink (by simp [usedObjects]) (.inr rfl)) fun _ _ _ => ?_
  refine .bind (foresees_readUnsigned hlink hblock (.inl rfl)) fun _ _ hblockRate => ?_
  refine .bind (foresees_readUnsigned hlink htou (.inl rfl)) fun _ _ htouRate => ?_
  refine .bind (foresees_readAmount hlink (by simp [usedObjects]) (.inr rfl)) fun _ _ _ => ?_
  refine .bind (foresees_readUnsigned hlink hb (.inl rfl)) fun _ _ helementBTouRate => ?_
  refine .bind (foresees_readAmount hlink (by simp [usedObjects]) (.inr rfl)) fun _ _ _ => ?_
  refine .bind (foresees_readAmount hlink (by simp [usedObjects]) (.inr rfl)) fun _ _ _ => ?_
  refine .bind (foresees_readAmount hlink (by simp [usedObjects]) (.inr rfl)) fun _ _ _ => .pure ?_
  simp only [kept_append, hblockRate.kept hblock, htouRate.kept htou, helementBTouRate.kept hb,
    true_or, or_true, and_self]

/-- The objects that a tariff writes are read back as amounts too. -/
theorem foresees_readPlanned (hname : (name, Shape.u32) ∈ plannedObjects) :
    Foresees peer line (readAmount name) fun _ _ => True :=
  foresees_readAmount hlink (List.mem_append_left _ hname) (.inr rfl)

theorem foresees_futureTariff : Foresees peer line futureTariff fun _ _ => True := by
  have used {p : String × Shape} (hp : p ∈ plannedObjects) : p ∈ usedObjects :=
    List.mem_append_left _ hp
  refine .bind (foresees_readPlanned hlink (by simp [plannedObjects])) fun _ _ _ => ?_
  refine .bind (foresees_readUnsigned hlink (used (by simp [plannedObjects])) (.inr (.inr rfl)))
    fun _ _ _ => ?_
  refine .bind (foresees_readThresholds hlink (used (by simp [plannedObjects]))
    (used (by simp [plannedObjects]))) fun _ _ _ => ?_
  refine .bind (foresees_readPlanned hlink (by simp [plannedObjects])) fun _ _ _ => ?_
  refine .bind (foresees_readPlanned hlink (by simp [plannedObjects])) fun _ _ _ => ?_
  refine .bind (foresees_readPlanned hlink (by simp [plannedObjects])) fun _ _ _ => ?_
  refine .bind (foresees_readPlanned hlink (by simp [plannedObjects])) fun _ _ _ => ?_
  exact .bind (foresees_readPlanned hlink (by simp [plannedObjects])) fun _ _ _ => .pure trivial

theorem foresees_writeFlatTariff (t : FlatTariff) :
    Foresees peer line (writeFlatTariff t) fun _ _ => True := by
  have hfield : ∀ a, FailsAs Foreseen (unsignedField a) := by
    intro a
    rw [unsignedField_eq]
    exact .ite (.ok _) (.error trivial)
  have hwrites : FailsAs Foreseen t.writes :=
    .bind (.ite (.ok _) (.error trivial)) fun _ => .bind (hfield _) fun _ =>
      .bind (hfield _) fun _ => .bind (hfield _) fun _ => .bind (hfield _) fun _ =>
        .bind (hfield _) fun _ => .bind (.ite (.ok _) (.error trivial)) fun _ => .ok _
  refine .lift_bind hwrites fun writes hok => .forM fun p hp => ?_
  obtain rfl : writes = t.plan := by
    rcases t.writes_cases with ⟨-, hplan⟩ | ⟨-, fault, hfault⟩
    · exact Except.ok.inj (hok.symm.trans hplan)
    · rw [hfault] at hok
      cases hok
  obtain ⟨name, payload⟩ := p
  obtain ⟨⟨_, shape⟩, hq, rfl⟩ := List.mem_map.1 (names_plan t ▸ List.mem_map_of_mem hp)
  exact foresees_writeNamed hlink (List.mem_append_left _ hq) payload

theorem foresees_pricingTable (active : Bool) :
    Foresees peer line (pricingTable active) fun _ _ => True := by
  refine .mapM fun block hblock => .mapM fun rate hrate => ?_
  obtain ⟨id, hid, hshape⟩ :=
    Option.map_eq_some_iff.1 (shape_of_price active block hblock rate hrate)
  have hprice : priceObject active block rate = .ok id := by rw [priceObject, hid]
  have hview : id.shape.ShownBy amount? := hshape ▸ Shape.shownBy_amount (.inr rfl)
  exact .ok_bind hprice (.mono (.readView hlink hview) fun _ _ _ => trivial)

/-! ## Prepayment -/

theorem foresees_enablePrepayment (enabled : Bool) :
    Foresees peer line (enablePrepayment enabled) fun _ _ => True := by
  have hflag (payload : Bytes) :
      Foresees peer line (writeNamed "prepay_enabled_flag" payload) fun _ _ => True :=
    @foresees_writeNamed _ hlink _ _ .u8 (by simp [usedObjects]) payload
  cases enabled with
  | false => exact hflag [0]
  | true =>
    refine .bind (foresees_readAmount hlink (by simp [usedObjects]) (.inl rfl)) fun _ credit _ => ?_
    by_cases hlow : credit < minimumBalance
    · rw [if_pos hlow]
      exact .throw trivial
    · rw [if_neg hlow]
      exact hflag [1]

end Calls

/-! ## All calls -/

/-- The calls of a meter that name their objects themselves, with all their arguments. -/
inductive MeterCall : {α : Type} → ClientM α → Prop
  | serial : MeterCall serial
  | hardware : MeterCall hardware
  | firmwareVersion : MeterCall firmwareVersion
  | clockTime : MeterCall clockTime
  | setClock (t : Instant) : MeterCall (setClock t)
  | signalQuality : MeterCall signalQuality
  | voltage : MeterCall voltage
  | phaseVoltages : MeterCall phaseVoltages
  | balance : MeterCall balance
  | prepaymentEnabled : MeterCall prepaymentEnabled
  | enablePrepayment (enabled : Bool) : MeterCall (enablePrepayment enabled)
  | sendToken (token : String) : MeterCall (sendToken token)
  | paymentCount : MeterCall paymentCount
  | payment : MeterCall payment
  | activeTariff : MeterCall activeTariff
  | futureTariff : MeterCall futureTariff
  | writeFlatTariff (t : FlatTariff) : MeterCall (writeFlatTariff t)
  | pricingTable (active : Bool) : MeterCall (pricingTable active)
  | timeSwitches (element : Element) : MeterCall (timeSwitches element)
  | clearTimeSwitches (element : Element) : MeterCall (clearTimeSwitches element)
  | profileEntry (log : ProfileLog) (t : Instant) : MeterCall (profileEntry log t)

theorem switchObject_used (element : Element) :
    (element.switchObject, .block (.fixed 80)) ∈ usedObjects := by
  cases element <;> simp [usedObjects, Element.switchObject]

theorem MeterCall.foresees {peer : Peer} (hlink : peer.IsLink) {line : Line} {α : Type}
    {x : ClientM α} (h : MeterCall x) : Foresees peer line x fun _ _ => True := by
  cases h with
  | serial =>
    exact .bind (foresees_readNamed hlink (by simp [usedObjects]) Shape.shownBy_text)
      fun _ _ _ => .pure trivial
  | hardware =>
    exact .bind (foresees_readNamed hlink (by simp [usedObjects]) Shape.shownBy_text)
      fun _ _ _ => .pure trivial
  | firmwareVersion =>
    exact .bind (foresees_readNamed hlink (by simp [usedObjects]) Shape.shownBy_rest)
      fun _ _ _ => .pure trivial
  | clockTime =>
    exact .bind (foresees_readNamed hlink (by simp [usedObjects]) Shape.shownBy_clock)
      fun _ _ _ => .lift_codec (.ite (.ok _) (.error trivial)) fun _ _ => trivial
  | setClock t => exact foresees_setClock hlink t
  | signalQuality => exact .mono (foresees_signalQuality hlink) fun _ _ _ => trivial
  | voltage => exact foresees_readVoltage hlink (by simp [usedObjects])
  | phaseVoltages =>
    exact .bind (foresees_readVoltage hlink (by simp [usedObjects])) fun _ _ _ =>
      .bind (foresees_readVoltage? hlink (by simp [usedObjects])) fun _ _ _ =>
        .bind (foresees_readVoltage? hlink (by simp [usedObjects])) fun _ _ _ => .pure trivial
  | balance => exact foresees_readAmount hlink (by simp [usedObjects]) (.inl rfl)
  | prepaymentEnabled =>
    exact .bind (foresees_readUnsigned hlink (by simp [usedObjects]) (.inl rfl))
      fun _ _ _ => .pure trivial
  | enablePrepayment enabled => exact foresees_enablePrepayment hlink enabled
  | sendToken token =>
    unfold Meter.sendToken
    split_ifs
    · exact @foresees_writeNamed _ hlink _ _ .empty (by simp [usedObjects]) _
    · exact .throw trivial
  | paymentCount =>
    exact .mono (foresees_readUnsigned hlink (by simp [usedObjects]) (.inr (.inl rfl)))
      fun _ _ _ => trivial
  | payment =>
    exact .mono (foresees_readNamed hlink (by simp [usedObjects]) Shape.shownBy_payment)
      fun _ _ _ => trivial
  | activeTariff => exact .mono (foresees_activeTariff hlink) fun _ _ _ => trivial
  | futureTariff => exact foresees_futureTariff hlink
  | writeFlatTariff t => exact foresees_writeFlatTariff hlink t
  | pricingTable active => exact foresees_pricingTable hlink active
  | timeSwitches element =>
    exact .mono (foresees_readNamed hlink (switchObject_used element) (Shape.shownBy_block 80))
      fun _ _ _ => trivial
  | clearTimeSwitches element =>
    exact foresees_writeNamed hlink (switchObject_used element) _
  | profileEntry log t =>
    refine .lift_bind (.ite (.ok _) (.error trivial)) fun time _ =>
      .bind (.transact hlink _) fun _ frame _ => ?_
    split
    · exact .pure trivial
    · exact .throw trivial

section Agreement

variable {peer : Peer} (hlink : peer.IsLink) (line : Line) (s : Session) (w : Wire)

include hlink

/-- Over a link that brings replies and failures of its socket, no call of a meter fails because a
record is of another kind than the call counts on, or because the catalogue lacks an object,
whatever the replies are. The bytes that calls make of numbers are the whole numbers that the meter
answered. -/
theorem MeterCall.agrees :
    (∀ {α : Type} {x : ClientM α}, MeterCall x → ∀ e, (x.run peer line s w).1 = .error e →
      (∀ shape misfit, e ≠ .codec (.mismatch shape misfit))
        ∧ ∀ fault, e = .argument fault → fault.field ≠ "object" ∧ fault.field ≠ "tariff")
    ∧ (let out := Meter.signalQuality.run peer line s w
      ∀ q, out.1 = .ok q → ∃ ts, Chain peer line ts s w out.2.1 out.2.2
        ∧ Kept ts "csq_net_op" (bitView "csq") q.csq
        ∧ Kept ts "csq_net_op" (bitView "network_operator") q.networkOperator)
    ∧ (let out := Meter.activeTariff.run peer line s w
      ∀ t, out.1 = .ok t → ∃ ts, Chain peer line ts s w out.2.1 out.2.2
        ∧ Kept ts "tariff_active_block_rate_current" Record.unsigned? t.blockRate
        ∧ Kept ts "tariff_active_tou_rate_current" Record.unsigned? t.touRate
        ∧ Kept ts "tariff_active_element_b_tou_rate_current" Record.unsigned? t.elementBTouRate) := by
  refine ⟨fun h e he => ?_, ?_, ?_⟩
  · obtain ⟨ts, -, hends⟩ := h.foresees hlink s w
    rw [he] at hends
    have hforeseen : e.Foreseen := hends
    refine ⟨hforeseen.not_mismatch, fun fault hfault => ?_⟩
    rw [hfault] at hforeseen
    exact hforeseen.field_ne
  · intro out q hq
    obtain ⟨ts, hchain, hends⟩ := foresees_signalQuality hlink s w
    rw [hq] at hends
    exact ⟨ts, hchain, hends⟩
  · intro out t ht
    obtain ⟨ts, hchain, hends⟩ := foresees_activeTariff hlink s w
    rw [ht] at hends
    exact ⟨ts, hchain, hends⟩

end Agreement

/-- A meter that answers everything with the best of all signals. A balance cannot be read from
that. -/
theorem MeterCall.agrees_signal :
    let reply : Bytes := [0x7e, 0x12, 0x00, 0x12, 0x34, 0x56, 0x00, 0x00, 0x00, 0x00, 0x05,
      0x01, 0xff, 0xfd, 0x1d, 0x00, 0xff, 0x39, 0xa2]
    let peer : Peer := .prompt fun _ _ => .answered reply
    let line : Line := ⟨"meter", {}⟩
    (peer.IsLink ∧ (Meter.signalQuality.run peer line {} .fresh).1 = .ok ⟨31, 7⟩
        ∧ ∃ ts, Kept ts "csq_net_op" (bitView "csq") 31)
      ∧ (Meter.balance.run peer line {} .fresh).1 = .error (.codec (.truncated 4 1))
      ∧ ∀ shape misfit, Failure.codec (.truncated 4 1) ≠ .codec (.mismatch shape misfit) := by
  intro reply peer line
  have hlink : peer.IsLink := fun _ _ => .inl ⟨reply, rfl⟩
  obtain ⟨hcalls, hsignal, -⟩ := MeterCall.agrees hlink line {} .fresh
  have hquality : (Meter.signalQuality.run peer line {} .fresh).1 = .ok ⟨31, 7⟩ := by
    decide +kernel
  have hbalance : (Meter.balance.run peer line {} .fresh).1 = .error (.codec (.truncated 4 1)) := by
    decide +kernel
  obtain ⟨ts, -, hkept, -⟩ := hsignal _ hquality
  exact ⟨⟨hlink, hquality, ts, hkept⟩, hbalance, (hcalls .balance _ hbalance).1⟩

end Meter

end MeterLink

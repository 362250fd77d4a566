import MeterLink.Proofs.ObjectStore
import MeterLink.Proofs.TariffProgramming

/-!
# A tariff is read back as it was programmed

On a meter that keeps objects, writes to objects with different names are all there at the end
(`putAll_of_mem`), so a read of one of them shows what was written to it (`yields_readWritten`).
The future tariff is read from objects that programming it has written, and each of them gives back
the value that was put into its bytes (`futureTariff_writeFlatTariff`).
-/

namespace MeterLink

open Dialogue (Peer Wire)

namespace ObjectStore

/-- The store after writes to named objects. -/
def putAll (held : ObjectStore) (writes : List (String × Bytes)) : ObjectStore :=
  (Meter.fieldsOf writes).foldl received held

theorem putAll_cons {name : String} {e : CatalogueEntry} (h : ObjectId.named? name = some e)
    (payload : Bytes) (writes : List (String × Bytes)) (held : ObjectStore) :
    held.putAll ((name, payload) :: writes)
      = putAll (Function.update held e.id payload) writes := by
  simp only [putAll, Meter.fieldsOf, List.filterMap_cons, h, Option.map_some, List.foldl_cons]
  rfl

theorem putAll_cons_unnamed {name : String} (h : ObjectId.named? name = none) (payload : Bytes)
    (writes : List (String × Bytes)) (held : ObjectStore) :
    held.putAll ((name, payload) :: writes) = held.putAll writes := by
  simp only [putAll, Meter.fieldsOf, List.filterMap_cons, h, Option.map_none]

theorem putAll_of_notMem {name : String} {e : CatalogueEntry} (h : ObjectId.named? name = some e) :
    ∀ (writes : List (String × Bytes)) (held : ObjectStore), name ∉ writes.map Prod.fst →
      held.putAll writes e.id = held e.id
  | [], _, _ => rfl
  | (other, payload) :: writes, held, hname => by
    simp only [List.map_cons, List.mem_cons, not_or] at hname
    rcases hother : ObjectId.named? other with _ | e'
    · rw [putAll_cons_unnamed hother, putAll_of_notMem h writes held hname.2]
    · rw [putAll_cons hother, putAll_of_notMem h writes _ hname.2]
      exact Function.update_of_ne (ObjectId.id_ne_of_named? h hother hname.1) ..

theorem putAll_of_mem {name : String} {e : CatalogueEntry} {payload : Bytes}
    (h : ObjectId.named? name = some e) : ∀ (writes : List (String × Bytes)) (held : ObjectStore),
      (writes.map Prod.fst).Nodup → (name, payload) ∈ writes → held.putAll writes e.id = payload
  | (other, payload') :: writes, held, hnodup, hmem => by
    rw [List.map_cons, List.nodup_cons] at hnodup
    rcases List.mem_cons.1 hmem with heq | hmem
    · cases heq
      rw [putAll_cons h, putAll_of_notMem h writes _ hnodup.1, Function.update_self]
    · rcases hother : ObjectId.named? other with _ | e'
      · rw [putAll_cons_unnamed hother]
        exact putAll_of_mem h writes held hnodup.2 hmem
      · rw [putAll_cons hother]
        exact putAll_of_mem h writes _ hnodup.2 hmem

end ObjectStore

namespace Meter

section Kept

variable {peer : Peer} {line : Line} {store : ObjectStore} (hmeter : Keeps peer store)
  (htime : line.settings.deadline = none)

include hmeter htime

theorem yields_readNamed {α : Type} (view : Record → Option α) {name : String} {e : CatalogueEntry}
    (h : ObjectId.named? name = some e) (held : ObjectStore) :
    Yields peer line store (readNamed view name) held (viewed view e.id (held e.id)) held :=
  yields_of_read hmeter htime (viewed view e.id) (run_readNamed peer line view h) held

theorem yields_writeNamed {name : String} {e : CatalogueEntry} (h : ObjectId.named? name = some e)
    {payload : Bytes} (hfit : payload.length ≤ 238) (held : ObjectStore) :
    Yields peer line store (writeNamed name payload) held (.ok ())
      (Function.update held e.id payload) :=
  yields_of_write hmeter htime (run_writeNamed peer line h payload) hfit held

theorem yields_writeAll : ∀ (writes : List (String × Bytes)),
    (∀ p ∈ writes, (ObjectId.named? p.1).isSome) → (∀ p ∈ writes, p.2.length ≤ 238) →
      ∀ held, Yields peer line store (writes.forM fun (name, payload) => writeNamed name payload)
        held (.ok ()) (held.putAll writes)
  | [], _, _, held => .pure () held
  | (name, payload) :: writes, hnamed, hfit, held => by
    rw [List.forall_mem_cons] at hnamed hfit
    obtain ⟨e, he⟩ := Option.isSome_iff_exists.1 hnamed.1
    rw [ObjectStore.putAll_cons he]
    exact (yields_writeNamed hmeter htime he hfit.1 held).bind
      (yields_writeAll writes hnamed.2 hfit.2 _)

/-- A read of an object that was written shows what was written to it. -/
theorem yields_readWritten {α : Type} (view : Record → Option α) {name : String} {shape : Shape}
    {payload : Bytes} {record : Record} {a : α} {writes : List (String × Bytes)}
    (hnodup : (writes.map Prod.fst).Nodup) (hmem : (name, payload) ∈ writes)
    (hshape : (ObjectId.named? name).map CatalogueEntry.shape = some shape)
    (hdec : Record.decode shape payload = .ok record) (hview : view record = some a)
    (held : ObjectStore) : Yields peer line store (readNamed view name) (held.putAll writes) (.ok a)
      (held.putAll writes) := by
  obtain ⟨e, he, rfl⟩ := Option.map_eq_some_iff.1 hshape
  have hread := yields_readNamed hmeter htime view he (held.putAll writes)
  rw [ObjectStore.putAll_of_mem he writes held hnodup hmem, viewed_ok ?_ hview] at hread
  · exact hread
  · rw [ObjectId.decodePayload, ObjectId.shape_of_named? he, hdec]

end Kept

/-! ## The words of a tariff -/

section Words

variable {n : Int} (h : IsWord n)

include h

theorem toNat_word : ((UInt32.ofNat n.toNat).toNat : Int) = n := by
  have hlt : n.toNat < UInt32.size := (Int.toNat_lt h.1).2 h.2
  rw [UInt32.toNat_ofNat_of_lt' hlt, Int.toNat_of_nonneg h.1]

theorem decode_word : Record.decode .u32 (littleEndian 4 n.toNat)
    = .ok (.u32 (UInt32.ofNat n.toNat)) := by
  rw [← fieldBytes_ofNat h]
  exact (Record.WrittenAs.u32 (UInt32.ofNat n.toNat)).decode_eq trivial id trivial

end Words

theorem amount?_word {a : Amount} (h : IsWord a.units) :
    amount? (.u32 (UInt32.ofNat a.units.toNat)) = some a := by
  have hunits : amount? (.u32 (UInt32.ofNat a.units.toNat))
      = some (.ofUnits (UInt32.ofNat a.units.toNat).toNat) := rfl
  rw [hunits, toNat_word h, Amount.ofUnits_units]

theorem ofMeterSeconds_word {t : Instant} (h : IsWord (t.seconds - 946684800)) :
    Instant.ofMeterSeconds (UInt32.ofNat (t.seconds - 946684800).toNat) = t.wholeSeconds := by
  rw [Instant.ofMeterSeconds, toNat_word h, Instant.meterEpoch, Instant.wholeSeconds]
  congr 1
  omega

theorem nodup_plan (t : FlatTariff) : (t.plan.map Prod.fst).Nodup := by
  rw [names_plan]
  decide

/-- The future tariff of a meter that a flat tariff was programmed into. -/
def FlatTariff.planned (t : FlatTariff) : FutureTariff where
  standingCharge := t.standingCharge
  activation := t.activation.wholeSeconds
  elementA := t.unitRate
  elementB := t.unitRate
  thresholdMask := thresholdMaskLayout.map fun f => (f.name, 0)
  thresholds := List.replicate 7 0
  emergencyCredit := t.emergencyCredit
  emergencyAvailability := t.emergencyAvailability
  debtRecoveryRate := t.debtRecoveryRate

section Kept

variable {peer : Peer} {line : Line} {store : ObjectStore} (hmeter : Keeps peer store)
  (htime : line.settings.deadline = none) {t : FlatTariff} (held : ObjectStore)

include hmeter htime

/-- A read of an object that the plan writes, by its place in the plan. -/
theorem yields_readPlanned {α : Type} (view : Record → Option α) (i : Nat) {name : String}
    {shape : Shape} {payload : Bytes} {record : Record} {a : α}
    (hwrite : t.plan[i]? = some (name, payload)) (hobject : plannedObjects[i]? = some (name, shape))
    (hdec : Record.decode shape payload = .ok record) (hview : view record = some a) :
    Yields peer line store (readNamed view name) (held.putAll t.plan) (.ok a)
      (held.putAll t.plan) :=
  yields_readWritten hmeter htime view (nodup_plan t) (List.mem_of_getElem? hwrite)
    (shape_of_planned _ (List.mem_of_getElem? hobject)) hdec hview held

theorem yields_readThresholds : Yields peer line store
    (readThresholds "tariff_future_threshold_mask" "tariff_future_threshold_values")
    (held.putAll t.plan) (.ok (t.planned.thresholdMask, t.planned.thresholds))
    (held.putAll t.plan) := by
  have hmask : Record.decode (.bits thresholdMaskLayout) [0]
      = .ok (.bits (thresholdMaskLayout.map fun f => (f.name, 0))) := by decide
  have hvalues : Record.decode (.u16s 7) (List.replicate 14 0)
      = .ok (.u16s (List.replicate 7 0)) := by decide
  rw [readThresholds]
  refine (yields_readPlanned hmeter htime held Record.bits? 0 rfl rfl hmask rfl).bind ?_
  refine (yields_readPlanned (a := List.replicate 7 0) hmeter htime held _ 1 rfl rfl hvalues
    ?_).bind ?_
  · rfl
  · exact .pure _ _

theorem yields_futureTariff (h : t.Acceptable) :
    Yields peer line store futureTariff (held.putAll t.plan) (.ok t.planned)
      (held.putAll t.plan) := by
  obtain ⟨⟨hlo, hhi⟩, hcredit, havail, hdebt, hcharge, hact⟩ := h
  have hrate : IsWord t.unitRate.units := ⟨hlo, by omega⟩
  have hamount (i : Nat) {name : String} {a : Amount} (ha : IsWord a.units)
      (hwrite : t.plan[i]? = some (name, littleEndian 4 a.units.toNat))
      (hobject : plannedObjects[i]? = some (name, .u32)) :
      Yields peer line store (readAmount name) (held.putAll t.plan) (.ok a) (held.putAll t.plan) :=
    yields_readPlanned hmeter htime held amount? i hwrite hobject (decode_word ha) (amount?_word ha)
  rw [futureTariff]
  refine (hamount 9 hcharge rfl rfl).bind ?_
  refine (yields_readPlanned hmeter htime held Record.unsigned? 10 rfl rfl (decode_word hact)
    rfl).bind ?_
  refine (yields_readThresholds hmeter htime held).bind ?_
  refine (hamount 3 hrate rfl rfl).bind ?_
  refine (hamount 4 hrate rfl rfl).bind ?_
  refine (hamount 5 hcredit rfl rfl).bind ?_
  refine (hamount 6 havail rfl rfl).bind ?_
  refine (hamount 7 hdebt rfl rfl).bind ?_
  rw [ofMeterSeconds_word hact]
  exact .pure _ _

theorem yields_writeFlatTariff {writes : List (String × Bytes)} (h : t.writes = .ok writes) :
    t.Acceptable
      ∧ Yields peer line store (writeFlatTariff t) held (.ok ()) (held.putAll t.plan) := by
  rcases t.writes_cases with ⟨hacc, hplan⟩ | ⟨-, fault, hrefused⟩
  · refine ⟨hacc, ?_⟩
    have hfit : ∀ p ∈ t.plan, p.2.length ≤ 238 := by
      simp [FlatTariff.plan, length_littleEndian]
    rw [writeFlatTariff, hplan]
    exact (Yields.lift _ held).bind
      (yields_writeAll hmeter htime t.plan (named_plan t) hfit held)
  · rw [h] at hrefused
    cases hrefused

end Kept

/-- A flat tariff that passes its checks is programmed into any meter that keeps objects, and is
read back as the future one. -/
theorem futureTariff_writeFlatTariff {peer : Peer} {store : ObjectStore} (hmeter : Keeps peer store)
    {line : Line} (htime : line.settings.deadline = none) {t : FlatTariff}
    {writes : List (String × Bytes)} (h : t.writes = .ok writes) (s : Session) (w : Wire) :
    let wrote := (writeFlatTariff t).run peer line s w
    wrote.1 = .ok ()
      ∧ (futureTariff.run peer line wrote.2.1 wrote.2.2).1 = .ok t.planned := by
  intro wrote
  obtain ⟨hacc, hwrite⟩ := yields_writeFlatTariff hmeter htime (store.afterAll w.requests) h
  obtain ⟨s', w', hrun, hheld⟩ := hwrite s w rfl
  obtain ⟨_, _, hread, -⟩ := yields_futureTariff hmeter htime _ hacc s' w' hheld
  have hwrote : wrote = (.ok (), s', w') := hrun
  rw [hwrote, hread]
  exact ⟨rfl, rfl⟩

/-- The largest amount and the highest rate, half a second into the new year, on a meter that held
something else. -/
theorem futureTariff_writeFlatTariff_limits :
    let t : FlatTariff :=
      ⟨⟨1735689600, 500000000⟩, .ofUnits 4294967295, .one, .ofUnits 500000, .zero, .ofUnits 1⟩
    let line : Line := ⟨"meter", {}⟩
    let peer := ObjectStore.meter fun _ => [0xff, 0xff]
    let wrote := (writeFlatTariff t).run peer line {} .fresh
    wrote.1 = .ok () ∧ ∃ read, (futureTariff.run peer line wrote.2.1 wrote.2.2).1 = .ok read
      ∧ read.activation = ⟨1735689600, 0⟩ ∧ read.standingCharge.units = 4294967295
      ∧ read.elementA = .one ∧ read.elementB = .one := by
  intro t line peer
  have hmeter : Keeps peer fun _ => [0xff, 0xff] := ObjectStore.keeps_meter fun _ => by decide
  have htime : line.settings.deadline = none := by decide
  have hwrites : t.writes = .ok t.plan :=
    t.writes_cases.elim And.right fun h => absurd (by decide : t.Acceptable) h.1
  obtain ⟨hok, hread⟩ := futureTariff_writeFlatTariff hmeter htime hwrites {} .fresh
  exact ⟨hok, t.planned, hread, rfl, rfl, rfl, rfl⟩

end Meter

end MeterLink

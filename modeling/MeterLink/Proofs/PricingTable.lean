import MeterLink.Proofs.CatalogueAgreement
import MeterLink.Proofs.ObjectStore

/-!
# The table of prices

Calls that read one thing after the other report the values of their transactions up to the first
that brings none (`Collects`), and so does a call that makes such calls for a list
(`Collects.mapM`). The table of prices is read by two of these, one inside the other; its rows all
have the same length, so that a price is found in the table by its place among the transactions
(`getElem?_flatten_rows`).
-/

namespace MeterLink

open Dialogue (Peer Wire)

/-! ## Calls that collect values -/

section Collects

variable {γ : Type}

/-- Transactions on the fields of a list up to the first that brings no value, and the values or
the failure that are reported of them. -/
inductive Collects (value : Transacted → Except Failure γ) :
    List DataField → List Transacted → Except Failure (List γ) → Prop
  | nil : Collects value [] [] (.ok [])
  | failed {tr : Transacted} {e : Failure} (fields : List DataField) (h : value tr = .error e) :
    Collects value (tr.data :: fields) [tr] (.error e)
  | cons {tr : Transacted} {c : γ} {fields : List DataField} {ts : List Transacted}
    {result : Except Failure (List γ)} (h : value tr = .ok c)
    (rest : Collects value fields ts result) :
    Collects value (tr.data :: fields) (tr :: ts) (result.map (c :: ·))

namespace Collects

variable {value : Transacted → Except Failure γ} {fields more : List DataField}
  {ts ts' : List Transacted} {result : Except Failure (List γ)}

theorem single (tr : Transacted) : Collects value [tr.data] [tr] ((value tr).map ([·])) := by
  rcases h : value tr with e | c
  · exact .failed [] h
  · exact .cons h .nil

theorem inOrder (h : Collects value fields ts result) : ts.map Transacted.data <+: fields := by
  induction h with
  | nil => exact List.prefix_refl _
  | failed fields _ => exact ⟨fields, rfl⟩
  | cons _ _ ih =>
    rw [List.map_cons, List.prefix_cons_inj]
    exact ih

theorem beforeLast (h : Collects value fields ts result) :
    ∀ tr ∈ ts.dropLast, ∃ c, value tr = .ok c := by
  induction h with
  | nil => simp
  | failed _ _ => simp
  | @cons tr c _ ts _ h _ ih =>
    cases ts with
    | nil => simp
    | cons t ts =>
      rw [List.dropLast_cons_cons, List.forall_mem_cons]
      exact ⟨⟨c, h⟩, ih⟩

theorem error_iff (h : Collects value fields ts result) (e : Failure) :
    result = .error e ↔ ∃ tr ∈ ts.getLast?, value tr = .error e := by
  induction h with
  | nil => simp
  | failed _ h => simp [h]
  | @cons tr c _ ts result h rest ih =>
    have hmap : result.map (c :: ·) = .error e ↔ result = .error e := by
      cases result <;> simp [Except.map]
    rw [hmap, ih]
    cases ts with
    | nil => simp [h]
    | cons t ts => rw [List.getLast?_cons_cons]

theorem values_eq {cs : List γ} (h : Collects value fields ts result) (hok : result = .ok cs) :
    ts.map Transacted.data = fields ∧ ts.map value = cs.map .ok := by
  induction h generalizing cs with
  | nil =>
    cases hok
    exact ⟨rfl, rfl⟩
  | failed _ _ => cases hok
  | @cons tr c _ ts result h rest ih =>
    rcases result with e | cs'
    · cases hok
    · cases hok
      obtain ⟨hdata, hvalues⟩ := ih rfl
      simp only [List.map_cons, hdata, hvalues, h, and_self]

theorem append {cs : List γ} {result' : Except Failure (List γ)}
    (h : Collects value fields ts result) (hok : result = .ok cs)
    (h' : Collects value more ts' result') :
    Collects value (fields ++ more) (ts ++ ts') (result'.map (cs ++ ·)) := by
  induction h generalizing cs with
  | nil =>
    cases hok
    rcases result' with e | cs'
    · exact h'
    · exact h'
  | failed _ _ => cases hok
  | @cons tr c _ ts result h rest ih =>
    rcases result with e | cs'
    · cases hok
    · cases hok
      have hcons := Collects.cons h (ih rfl)
      rcases result' with e | cs''
      · exact hcons
      · exact hcons

/-- What follows a failure does not matter. -/
theorem stop {e : Failure} (h : Collects value fields ts result) (herr : result = .error e)
    (more : List DataField) : Collects value (fields ++ more) ts (.error e) := by
  induction h with
  | nil => cases herr
  | failed fields h =>
    cases herr
    exact .failed (fields ++ more) h
  | @cons tr c _ ts result h rest ih =>
    rcases result with e' | cs'
    · cases herr
      exact .cons h (ih rfl)
    · cases herr

/-- Calls that collect values of which each makes something, one for every element of a list. -/
theorem mapM {α β : Type} {peer : Peer} {line : Line} {f : β → ClientM α}
    {asked : β → List DataField} {made : α → List γ} {P : α → Prop} : ∀ {xs : List β},
    (∀ x ∈ xs, Makes peer line (f x) fun ts r =>
      Collects value (asked x) ts (r.map made) ∧ ∀ a, r = .ok a → P a) →
    Makes peer line (xs.mapM f) fun ts r =>
      Collects value (xs.flatMap asked) ts (r.map fun as => as.flatMap made)
        ∧ ∀ as, r = .ok as → as.length = xs.length ∧ ∀ a ∈ as, P a
  | [], _ => by
    rw [List.mapM_nil]
    refine .pure ⟨.nil, ?_⟩
    rintro _ ⟨⟩
    simp
  | x :: xs, hxs => by
    rw [List.forall_mem_cons] at hxs
    obtain ⟨hx, hxs⟩ := hxs
    rw [List.mapM_cons]
    refine .bind hx (fun ts a h => .bind (mapM hxs) (fun ts' as h' => .pure ⟨?_, ?_⟩)
      fun ts' e h' => ⟨?_, ?_⟩) fun ts e h => ⟨?_, ?_⟩
    · rw [List.append_nil]
      exact h.1.append rfl h'.1
    · rintro _ ⟨⟩
      obtain ⟨hlen, hall⟩ := h'.2 as rfl
      rw [List.forall_mem_cons]
      exact ⟨congrArg (· + 1) hlen, h.2 a rfl, hall⟩
    · exact h.1.append rfl h'.1
    · rintro _ ⟨⟩
    · exact h.1.stop rfl _
    · rintro _ ⟨⟩

end Collects

end Collects

/-- In a table whose rows all have the same length, a place in the row of rows is a row and a place
in it. -/
theorem getElem?_flatten_rows {α : Type} {n j : Nat} (hj : j < n) : ∀ {table : List (List α)}
    (i : Nat), (∀ row ∈ table, row.length = n) →
      table.flatten[n * i + j]? = table[i]?.bind fun row => row[j]?
  | [], i, _ => by simp
  | row :: table, 0, h => by
    have hrow : row.length = n := h row List.mem_cons_self
    simp [List.getElem?_append_left (hrow ▸ hj)]
  | row :: table, i + 1, h => by
    rw [List.forall_mem_cons] at h
    have hplace : n * (i + 1) + j - row.length = n * i + j := by
      rw [h.1, Nat.mul_succ]
      omega
    rw [List.flatten_cons, List.getElem?_append_right (by rw [h.1, Nat.mul_succ]; omega), hplace,
      getElem?_flatten_rows hj i h.2, List.getElem?_cons_succ]

/-! ## Meters that answer reads -/

/-- The peer is a meter that answers every read of an object with a frame that carries this
payload. -/
def Dialogue.Peer.Answers (peer : Peer) (held : ObjectStore) : Prop :=
  ∀ earlier request f id, Frame.decodeVerified request = .ok f → f.data = .readObject id →
    ∃ reply answer, (peer earlier request).outcome = .ok reply
      ∧ Frame.decodeVerified reply = .ok answer ∧ answer.data.payload = held id

/-- A meter that keeps no request in mind answers from its store. -/
theorem ObjectStore.answers_meter {held : ObjectStore} (h : ∀ id, (held id).length ≤ 238) :
    Dialogue.Peer.Answers (.prompt fun _ request => held.meter [] request) held := by
  intro earlier request f id hread hdata
  obtain ⟨answer, reply, henc, hout, hpayload⟩ :=
    ObjectStore.keeps_meter h [] request f id .read [] hread hdata
  have hverified := Frame.decodeVerified_append henc []
  rw [List.append_nil] at hverified
  refine ⟨reply, _, hout, hverified, hpayload.trans ?_⟩
  rw [hdata]
  rfl

theorem Chain.answered {peer : Peer} {line : Line} {held : ObjectStore} (hmeter : peer.Answers held)
    (htime : line.settings.deadline = none) {ts : List Transacted} {s s' : Session} {w w' : Wire}
    (h : Chain peer line ts s w s' w') {tr : Transacted} (hmem : tr ∈ ts) {id : ObjectId}
    (hdata : tr.data = .readObject id) :
    tr.requests.length = 1 ∧ ∃ frame, tr.result = .ok frame ∧ frame.data.payload = held id := by
  induction h with
  | nil => cases hmem
  | @cons data result ts s s₁ s₂ w w₁ w₂ first rest ih =>
    rcases List.mem_cons.1 hmem with rfl | hmem
    · obtain rfl : data = .readObject id := hdata
      have hfit : (DataField.readObject id).size ≤ 243 := by simp
      obtain ⟨f, hread, hf⟩ := DataField.decodeVerified_requestBytes hfit
        (s.nextControl line.settings.sequence).1
      obtain ⟨reply, answer, hout, hverified, hpayload⟩ := hmeter w.requests _ f id hread hf
      obtain ⟨s', w', hrun, hreq⟩ := run_transact_read line hfit htime
        (line.settings.readFrame_of_decodeVerified hverified) hout
      rw [first] at hrun
      cases hrun
      rw [hreq, List.drop_left]
      exact ⟨rfl, answer, rfl, hpayload⟩
    · exact ih hmem

/-! ## Prices -/

/-- The amount in the first four bytes of a payload. -/
def priceOf (payload : Bytes) : Except Failure Amount :=
  if 4 ≤ payload.length then .ok (.ofUnits (ofLittleEndian (payload.take 4)))
  else .error (.codec (.truncated 4 payload.length))

/-- The amount that a transaction brought. -/
def Transacted.price (tr : Transacted) : Except Failure Amount :=
  tr.result.bind fun frame => priceOf frame.data.payload

theorem priceOf_eq_ok {payload : Bytes} (h : 4 ≤ payload.length) :
    ∃ price, priceOf payload = .ok price
      ∧ price.units = (ofLittleEndian (payload.take 4) : Int) := by
  refine ⟨_, if_pos h, Amount.units_ofUnits (by omega) ?_⟩
  have hlt := ofLittleEndian_lt (payload.take 4)
  rw [List.length_take_of_le h] at hlt
  simp at hlt
  omega

namespace Meter

theorem viewed_price {id : ObjectId} (hshape : id.shape = .u32) (payload : Bytes) :
    viewed amount? id payload = priceOf payload := by
  by_cases h : 4 ≤ payload.length
  · have hlt : ofLittleEndian (payload.take 4) < UInt32.size := by
      have hbytes := ofLittleEndian_lt (payload.take 4)
      rwa [List.length_take_of_le h] at hbytes
    have hdec : id.decodePayload payload
        = .ok (.u32 (UInt32.ofNat (ofLittleEndian (payload.take 4)))) := by
      rw [ObjectId.decodePayload, hshape, Record.decode, takeExact_eq_ok_iff.2 ⟨h, rfl⟩]
      rfl
    have hview : amount? (.u32 (UInt32.ofNat (ofLittleEndian (payload.take 4))))
        = some (.ofUnits (UInt32.ofNat (ofLittleEndian (payload.take 4))).toNat) := rfl
    rw [UInt32.toNat_ofNat_of_lt' hlt] at hview
    rw [viewed_ok hdec hview, priceOf, if_pos h]
  · have hwidth : id.shape.width? = some 4 := by rw [hshape]; rfl
    rw [viewed_short hwidth (Nat.lt_of_not_le h), priceOf, if_neg h]

/-- The registered name of the price of a block and a rate. -/
def priceName (active : Bool) (block rate : Nat) : String :=
  "tariff_" ++ (if active then "active" else "future") ++ s!"_block_{block}_rate_{rate}"

theorem entry_of_price (active : Bool) : ∀ block ∈ List.range' 1 8, ∀ rate ∈ List.range' 1 8,
    ((ObjectId.blockRate? active block rate).bind ObjectId.entry?).map (fun e => (e.name, e.shape))
      = some (priceName active block rate, .u32) := by
  cases active <;> decide +kernel

/-- The object that holds a price is the one with its name. -/
theorem price_named (active : Bool) {block rate : Nat} (hblock : block ∈ List.range' 1 8)
    (hrate : rate ∈ List.range' 1 8) : ∃ e, ObjectId.blockRate? active block rate = some e.id
      ∧ ObjectId.named? (priceName active block rate) = some e ∧ e.id.shape = .u32 := by
  obtain ⟨e, he, hrow⟩ :=
    Option.map_eq_some_iff.1 (entry_of_price active block hblock rate hrate)
  obtain ⟨id, hid, hentry⟩ := Option.bind_eq_some_iff.1 he
  obtain ⟨hmem, rfl⟩ := ObjectId.entry?_eq_some_iff.1 hentry
  obtain ⟨hname, hshape⟩ := Prod.mk.inj hrow
  have hnamed := ObjectId.named?_eq_some_iff.2 ⟨hmem, hname⟩
  exact ⟨e, hid, hnamed, (ObjectId.shape_of_named? hnamed).trans hshape⟩

/-- The read of the object that holds a price, if there is one. -/
def priceRead (active : Bool) (block rate : Nat) : List DataField :=
  (ObjectId.blockRate? active block rate).toList.map .readObject

/-- The reads of all prices, block by block. -/
def priceReads (active : Bool) : List DataField :=
  (List.range' 1 8).flatMap fun block => (List.range' 1 8).flatMap (priceRead active block)

theorem length_priceReads (active : Bool) : (priceReads active).length = 64 := by
  cases active <;> decide +kernel

theorem getElem?_priceReads (active : Bool) : ∀ i < 8, ∀ j < 8,
    (priceReads active)[8 * i + j]?
      = (ObjectId.blockRate? active (i + 1) (j + 1)).map .readObject := by
  cases active <;> decide +kernel

theorem mem_range'_of_lt {i : Nat} (h : i < 8) : i + 1 ∈ List.range' 1 8 := by
  rw [List.mem_range'_1]
  omega

section Run

variable (peer : Peer) (line : Line) (active : Bool)

theorem collects_readPrice {block rate : Nat} (hblock : block ∈ List.range' 1 8)
    (hrate : rate ∈ List.range' 1 8) : Makes peer line (readPrice active block rate) fun ts r =>
      Collects Transacted.price (priceRead active block rate) ts (r.map ([·])) := by
  obtain ⟨e, hid, -, hshape⟩ := price_named active hblock hrate
  have hobject : priceObject active block rate = .ok e.id := by rw [priceObject, hid]
  have hrun : ∀ s w, let out := (transact (.readObject e.id)).run peer line s w
      (readPrice active block rate).run peer line s w
        = (out.1.bind fun frame => priceOf frame.data.payload, out.2) := by
    intro s w
    rw [readPrice, ClientM.run_bind, ClientM.run_lift, hobject]
    simp only [← viewed_price hshape]
    exact run_readView peer line amount? e.id s w
  refine .mono (.of_transact hrun) fun ts r h => ?_
  obtain ⟨requests, result, rfl, rfl⟩ := h
  have hread : priceRead active block rate = [.readObject e.id] := by rw [priceRead, hid]; rfl
  rw [hread]
  exact Collects.single ⟨.readObject e.id, requests, result⟩

theorem collects_pricingTable : Makes peer line (pricingTable active) fun ts r =>
    Collects Transacted.price (priceReads active) ts (r.map List.flatten)
      ∧ ∀ table, r = .ok table → table.length = 8 ∧ ∀ row ∈ table, row.length = 8 := by
  have hrows : ∀ block ∈ List.range' 1 8, Makes peer line
      ((List.range' 1 8).mapM (readPrice active block)) fun ts r =>
        Collects Transacted.price ((List.range' 1 8).flatMap (priceRead active block)) ts (r.map id)
          ∧ ∀ row, r = .ok row → row.length = 8 := by
    intro block hblock
    have hprices := Collects.mapM fun rate hrate =>
      (collects_readPrice peer line active hblock hrate).mono fun _ _ h => ⟨h, fun _ _ => trivial⟩
    refine hprices.mono fun ts r h => ⟨?_, fun row hrow => (h.2 row hrow).1⟩
    obtain ⟨hcollects, -⟩ := h
    simp only [List.flatMap_singleton'] at hcollects
    exact hcollects
  refine .mono (Collects.mapM hrows) fun ts r h => ⟨?_, h.2⟩
  obtain ⟨hcollects, -⟩ := h
  simp only [List.flatMap_id] at hcollects
  exact hcollects

variable {peer line active} {ts : List Transacted} {s s' : Session} {w w' : Wire}

theorem length_le_of_prefix (h : ts.map Transacted.data <+: priceReads active) :
    ts.length ≤ 64 := by
  rw [← length_priceReads active, ← List.length_map Transacted.data]
  exact h.length_le

theorem data_of_prefix (h : ts.map Transacted.data <+: priceReads active) {i j : Nat}
    (hi : i < 8) (hj : j < 8) : ∃ e, ObjectId.named? (priceName active (i + 1) (j + 1)) = some e
      ∧ ∀ tr ∈ ts[8 * i + j]?, tr.data = .readObject e.id := by
  obtain ⟨e, hid, hnamed, -⟩ := price_named active (mem_range'_of_lt hi) (mem_range'_of_lt hj)
  refine ⟨e, hnamed, fun tr htr => ?_⟩
  obtain ⟨hlt, rfl⟩ := List.getElem?_eq_some_iff.1 htr
  have hplace := List.prefix_iff_getElem?.1 h (8 * i + j) (by rwa [List.length_map])
  rw [getElem?_priceReads active i hi j hj, hid, List.getElem_map] at hplace
  exact (Option.some.inj hplace).symm

section Answered

variable {held : ObjectStore} (hmeter : peer.Answers held) (htime : line.settings.deadline = none)
  (hlong : ∀ i < 8, ∀ j < 8, ∀ e,
    ObjectId.named? (priceName active (i + 1) (j + 1)) = some e → 4 ≤ (held e.id).length)
  (hchain : Chain peer line ts s w s' w') (hdata : ts.map Transacted.data <+: priceReads active)
  {tr : Transacted}

include hmeter htime hlong hchain hdata

/-- A meter with four bytes for every price brings all of them that it is asked for. -/
theorem price_of_answered {i j : Nat} (hi : i < 8) (hj : j < 8)
    (htr : ts[8 * i + j]? = some tr) : tr.requests.length = 1
      ∧ ∃ e price, ObjectId.named? (priceName active (i + 1) (j + 1)) = some e
        ∧ tr.price = .ok price ∧ price.units = (ofLittleEndian ((held e.id).take 4) : Int) := by
  obtain ⟨e, hnamed, hread⟩ := data_of_prefix hdata hi hj
  obtain ⟨hone, frame, hframe, hpayload⟩ :=
    hchain.answered hmeter htime (List.mem_of_getElem? htr) (hread tr htr)
  obtain ⟨price, hprice, hunits⟩ := priceOf_eq_ok (hlong i hi j hj e hnamed)
  refine ⟨hone, e, price, hnamed, ?_, hunits⟩
  rw [Transacted.price, hframe, ← hprice, ← hpayload]
  rfl

theorem brought_of_answered (htr : tr ∈ ts) :
    tr.requests.length = 1 ∧ ∃ price, tr.price = .ok price := by
  obtain ⟨k, hk, rfl⟩ := List.getElem_of_mem htr
  have hcount := length_le_of_prefix hdata
  have hget : ts[8 * (k / 8) + k % 8]? = some ts[k] := by
    rw [Nat.div_add_mod, List.getElem?_eq_getElem hk]
  obtain ⟨hone, e, price, -, hprice, -⟩ := price_of_answered hmeter htime hlong hchain hdata
    (by omega) (Nat.mod_lt k (by decide)) hget
  exact ⟨hone, price, hprice⟩

end Answered

theorem placed_of_collects {result : Except Failure PricingTable} {table : PricingTable}
    (h : Collects Transacted.price (priceReads active) ts (result.map List.flatten))
    (hok : result = .ok table) (hsize : ∀ row ∈ table, row.length = 8) : ts.length = 64
      ∧ ∀ i < 8, ∀ j < 8, ∃ tr price, ts[8 * i + j]? = some tr ∧ tr.price = .ok price
        ∧ (table[i]?.bind fun row => row[j]?) = some price := by
  subst hok
  obtain ⟨hdata, hprices⟩ := h.values_eq rfl
  have hlen : ts.length = 64 := by
    rw [← length_priceReads active, ← hdata, List.length_map]
  refine ⟨hlen, fun i hi j hj => ?_⟩
  have hlt : 8 * i + j < ts.length := by omega
  have hplace := congrArg (·[8 * i + j]?) hprices
  simp only [List.getElem?_map, List.getElem?_eq_getElem hlt, Option.map_some,
    getElem?_flatten_rows hj i hsize] at hplace
  obtain ⟨price, hentry, hprice⟩ := Option.map_eq_some_iff.1 hplace.symm
  exact ⟨_, price, List.getElem?_eq_getElem hlt, hprice.symm, hentry⟩

/-- The prices are read one after the other, block by block, up to the first read that fails, which
is reported. If none fails there are 64, and each is in the table at its block and rate. That is so
on every meter that answers reads and has four bytes for each price. -/
theorem pricingTable_placed (peer : Peer) (line : Line) (active : Bool) (s : Session) (w : Wire) :
    let out := (pricingTable active).run peer line s w
    ∃ ts, Chain peer line ts s w out.2.1 out.2.2
      ∧ ts.length ≤ 64
      ∧ (∀ i < 8, ∀ j < 8, ∃ e, ObjectId.named? (priceName active (i + 1) (j + 1)) = some e
        ∧ ∀ tr ∈ ts[8 * i + j]?, tr.data = .readObject e.id)
      ∧ (∀ tr ∈ ts.dropLast, ∃ price, tr.price = .ok price)
      ∧ (∀ e, out.1 = .error e ↔ ∃ tr ∈ ts.getLast?, tr.price = .error e)
      ∧ (∀ table, out.1 = .ok table → ts.length = 64
        ∧ (table.length = 8 ∧ ∀ row ∈ table, row.length = 8)
        ∧ ∀ i < 8, ∀ j < 8, ∃ tr price, ts[8 * i + j]? = some tr ∧ tr.price = .ok price
          ∧ (table[i]?.bind fun row => row[j]?) = some price)
      ∧ ∀ held, peer.Answers held → line.settings.deadline = none →
        (∀ i < 8, ∀ j < 8, ∀ e, ObjectId.named? (priceName active (i + 1) (j + 1)) = some e →
          4 ≤ (held e.id).length) →
        ts.length = 64 ∧ (∀ tr ∈ ts, tr.requests.length = 1) ∧ ∃ table, out.1 = .ok table
          ∧ ∀ i < 8, ∀ j < 8, ∃ e price,
            ObjectId.named? (priceName active (i + 1) (j + 1)) = some e
              ∧ (table[i]?.bind fun row => row[j]?) = some price
              ∧ price.units = (ofLittleEndian ((held e.id).take 4) : Int) := by
  intro out
  obtain ⟨ts, hchain, hcollects, hsize⟩ := collects_pricingTable peer line active s w
  have hdata := hcollects.inOrder
  have herror : ∀ e, out.1 = .error e ↔ ∃ tr ∈ ts.getLast?, tr.price = .error e := by
    intro e
    rw [← hcollects.error_iff e]
    change out.1 = .error e ↔ out.1.map List.flatten = .error e
    cases out.1 <;> simp [Except.map]
  have hplaced := fun table (hok : out.1 = .ok table) =>
    placed_of_collects hcollects hok (hsize table hok).2
  refine ⟨ts, hchain, length_le_of_prefix hdata, fun i hi j hj => data_of_prefix hdata hi hj,
    hcollects.beforeLast, herror,
    fun table hok => ⟨(hplaced table hok).1, hsize table hok, (hplaced table hok).2⟩, ?_⟩
  intro held hmeter htime hlong
  rcases hout : out.1 with e | table
  · obtain ⟨tr, hlast, hfailed⟩ := (herror e).1 hout
    obtain ⟨-, price, hprice⟩ :=
      brought_of_answered hmeter htime hlong hchain hdata (List.mem_of_getLast? hlast)
    rw [hprice] at hfailed
    cases hfailed
  · obtain ⟨hlen, hentries⟩ := hplaced table hout
    refine ⟨hlen, fun tr htr => ?_, table, rfl, fun i hi j hj => ?_⟩
    · exact (brought_of_answered hmeter htime hlong hchain hdata htr).1
    obtain ⟨tr, price, hget, hprice, hentry⟩ := hentries i hi j hj
    obtain ⟨-, e, price', hnamed, hprice', hunits⟩ :=
      price_of_answered hmeter htime hlong hchain hdata hi hj hget
    obtain rfl : price = price' := Except.ok.inj (hprice.symm.trans hprice')
    exact ⟨e, price, hnamed, hentry, hunits⟩

/-- Two meters that have the identifier of an object for its price. One of them has three bytes
only for the first block and the third rate. -/
theorem pricingTable_placed_identifiers :
    let held : ObjectStore := fun id => littleEndian 4 id.toNat
    let short : ObjectStore := fun id => littleEndian (if id = .ofNat 0xfff803 then 3 else 4) id.toNat
    let line : Line := ⟨"meter", {}⟩
    (∃ table, ((pricingTable true).run (.prompt fun _ => held.meter []) line {} .fresh).1 = .ok table
        ∧ (table[2]?.bind fun row => row[4]?) = some (.ofUnits 0xfff915))
      ∧ let out := (pricingTable false).run (.prompt fun _ => short.meter []) line {} .fresh
        out.1 = .error (.codec (.truncated 4 3)) ∧ out.2.2.requests.length = 3 := by
  intro held short line
  have hmeter := @ObjectStore.answers_meter held fun id => by
    rw [length_littleEndian]
    decide
  obtain ⟨ts, -, -, -, -, -, -, hanswered⟩ :=
    pricingTable_placed (.prompt fun _ => held.meter []) line true {} .fresh
  obtain ⟨-, -, table, hok, hentries⟩ := hanswered held hmeter (by decide) fun i hi j hj e he => by
    rw [length_littleEndian]
  obtain ⟨e, price, hnamed, hentry, hunits⟩ := hentries 2 (by decide) 4 (by decide)
  have hid : e.id = .ofNat 0xfff915 := by
    have hfound : (ObjectId.named? (priceName true 3 5)).map CatalogueEntry.id
        = some (.ofNat 0xfff915) := by decide +kernel
    rw [hnamed] at hfound
    exact Option.some.inj hfound
  have hprice : price = .ofUnits 0xfff915 := by
    rw [← Amount.ofUnits_units price, hunits, hid]
    decide +kernel
  exact ⟨⟨table, hok, hprice ▸ hentry⟩, by decide +kernel⟩

end Run

end Meter

end MeterLink

import MeterLink.Meter.Reading
import MeterLink.Proofs.Chains
import MeterLink.Proofs.ReaderFaults

/-!
# What calls come to

A call is specified by the transactions that it makes and its result (`Makes`), on whatever session
and wire. Specifications follow the parts that calls are put together from: calls in sequence make
the transactions of both (`Makes.bind`), and a call that recovers from a failure goes on behind the
transactions that led to it (`Makes.tryCatch`). Over a link that fails in no way of its own every
read shows what it was answered (`Foresees.readView`), and nothing else can fail but the
transaction and the bytes of its answer.
-/

namespace MeterLink

open Dialogue (Peer Wire)

theorem Chain.append {peer : Peer} {line : Line} {ts ts' : List Transacted} {s s' s'' : Session}
    {w w' w'' : Wire} (h : Chain peer line ts s w s' w') (h' : Chain peer line ts' s' w' s'' w'') :
    Chain peer line (ts ++ ts') s w s'' w'' := by
  induction h with
  | nil => exact h'
  | cons first _ ih => exact .cons first (ih h')

/-- Nothing depends on how a sequence of calls is put together. -/
instance : LawfulMonad ClientM := LawfulMonad.mk' ClientM
  (fun x => by
    funext line s
    refine (congrArg (Dialogue.andThen · (x line s)) ?_).trans (Dialogue.andThen_done _)
    funext ⟨result, s⟩
    cases result <;> rfl)
  (fun a f => rfl)
  (fun x f g => by
    funext line s
    refine (Dialogue.andThen_assoc ..).trans (congrArg (Dialogue.andThen · (x line s)) ?_)
    funext ⟨result, s⟩
    cases result <;> rfl)

section TryCatch

variable {peer : Peer} {line : Line} {α : Type} {x : ClientM α} (handle : Failure → ClientM α)
  {s s' : Session} {w w' : Wire}

theorem ClientM.run_tryCatch_ok {a : α} (h : x.run peer line s w = (.ok a, s', w')) :
    (tryCatch x handle).run peer line s w = (.ok a, s', w') := by
  have hx : (x line s).run peer w = ((.ok a, s'), w') :=
    congrArg (fun out => ((out.1, out.2.1), out.2.2)) h
  have hrecover : tryCatch x handle = recover x handle := rfl
  rw [hrecover, run, recover, Dialogue.run_andThen, hx]
  rfl

theorem ClientM.run_tryCatch_error {e : Failure} (h : x.run peer line s w = (.error e, s', w')) :
    (tryCatch x handle).run peer line s w = (handle e).run peer line s' w' := by
  have hx : (x line s).run peer w = ((.error e, s'), w') :=
    congrArg (fun out => ((out.1, out.2.1), out.2.2)) h
  have hrecover : tryCatch x handle = recover x handle := rfl
  rw [hrecover, run, recover, Dialogue.run_andThen, hx]
  rfl

end TryCatch

section Specification

variable (peer : Peer) (line : Line) {α β : Type}

/-- From every session and wire, the call makes transactions that fit its result. -/
def Makes (x : ClientM α) (fits : List Transacted → Except Failure α → Prop) : Prop :=
  ∀ s w, let out := x.run peer line s w
    ∃ ts, Chain peer line ts s w out.2.1 out.2.2 ∧ fits ts out.1

variable {peer line} {x : ClientM α} {fits fits' : List Transacted → Except Failure α → Prop}

namespace Makes

theorem mono (hx : Makes peer line x fits) (h : ∀ ts r, fits ts r → fits' ts r) :
    Makes peer line x fits' := by
  intro s w
  obtain ⟨ts, hchain, hfits⟩ := hx s w
  exact ⟨ts, hchain, h ts _ hfits⟩

theorem pure {a : α} (h : fits [] (.ok a)) : Makes peer line (Pure.pure a) fits :=
  fun s w => ⟨[], .nil s w, h⟩

theorem throw {e : Failure} (h : fits [] (.error e)) :
    Makes peer line (MonadExcept.throw e : ClientM α) fits :=
  fun s w => ⟨[], .nil s w, h⟩

theorem lift {r : Except Failure α} (h : fits [] r) :
    Makes peer line (liftM r : ClientM α) fits := by
  intro s w
  rw [ClientM.run_lift]
  exact ⟨[], .nil s w, h⟩

theorem lift_codec {r : Except CodecFault α} (h : fits [] (r.mapError .codec)) :
    Makes peer line (liftM r : ClientM α) fits := by
  intro s w
  rw [ClientM.run_lift_codec]
  exact ⟨[], .nil s w, h⟩

theorem bind {f : α → ClientM β} {goal : List Transacted → Except Failure β → Prop}
    (hx : Makes peer line x fits)
    (hf : ∀ ts a, fits ts (.ok a) → Makes peer line (f a) fun ts' r => goal (ts ++ ts') r)
    (he : ∀ ts e, fits ts (.error e) → goal ts (.error e)) : Makes peer line (x >>= f) goal := by
  intro s w
  obtain ⟨ts, hchain, hfits⟩ := hx s w
  rw [ClientM.run_bind]
  rcases hrun : x.run peer line s w with ⟨e | a, s', w'⟩
  · rw [hrun] at hchain hfits
    exact ⟨ts, hchain, he ts e hfits⟩
  · rw [hrun] at hchain hfits
    obtain ⟨ts', hchain', hgoal⟩ := hf ts a hfits s' w'
    exact ⟨ts ++ ts', hchain.append hchain', hgoal⟩

theorem tryCatch {handle : Failure → ClientM α}
    {goal : List Transacted → Except Failure α → Prop} (hx : Makes peer line x fits)
    (ha : ∀ ts a, fits ts (.ok a) → goal ts (.ok a))
    (hh : ∀ ts e, fits ts (.error e) → Makes peer line (handle e) fun ts' r => goal (ts ++ ts') r) :
    Makes peer line (MonadExcept.tryCatch x handle) goal := by
  intro s w
  obtain ⟨ts, hchain, hfits⟩ := hx s w
  rcases hrun : x.run peer line s w with ⟨e | a, s', w'⟩
  · rw [hrun] at hchain hfits
    rw [ClientM.run_tryCatch_error handle hrun]
    obtain ⟨ts', hchain', hgoal⟩ := hh ts e hfits s' w'
    exact ⟨ts ++ ts', hchain.append hchain', hgoal⟩
  · rw [hrun] at hchain hfits
    rw [ClientM.run_tryCatch_ok handle hrun]
    exact ⟨ts, hchain, ha ts a hfits⟩

/-- A call that makes one transaction and then something of its answer. -/
theorem of_transact {data : DataField} {g : Frame → Except Failure α}
    (hx : ∀ s w, let out := (transact data).run peer line s w
      x.run peer line s w = (out.1.bind g, out.2)) :
    Makes peer line x fun ts r => ∃ requests result,
      ts = [⟨data, requests, result⟩] ∧ r = result.bind g := by
  intro s w
  rw [hx s w]
  exact ⟨_, .cons rfl (.nil _ _), _, _, rfl, rfl⟩

end Makes

end Specification

/-! ## Failures that are foreseen -/

/-- The link brings replies and failures of its socket, and refuses no request by itself. -/
def Dialogue.Peer.IsLink (peer : Peer) : Prop :=
  ∀ earlier request, (∃ reply, (peer earlier request).outcome = .ok reply)
    ∨ ∃ endpoint phase fault,
      (peer earlier request).outcome = .error (.transport endpoint phase fault)

/-- The failure does not come from a record of an unexpected kind, nor from an object that the
catalogue does not have. -/
def Failure.Foreseen : Failure → Prop
  | .codec fault => fault.OfBytes
  | .argument (.unknownObject _) => False
  | .argument (.noPrice ..) => False
  | _ => True

theorem Failure.Foreseen.not_mismatch {e : Failure} (h : e.Foreseen) (shape : Shape)
    (misfit : Misfit) : e ≠ .codec (.mismatch shape misfit) := by
  rintro rfl
  exact h

theorem Failure.Foreseen.field_ne {fault : ArgumentFault} (h : (Failure.argument fault).Foreseen) :
    fault.field ≠ "object" ∧ fault.field ≠ "tariff" := by
  cases fault with
  | unknownObject => exact h.elim
  | noPrice => exact h.elim
  | _ => simp [ArgumentFault.field]

open Failure (Foreseen)

theorem failsAs_codec {α : Type} {r : Except CodecFault α} (h : FailsAs CodecFault.OfBytes r) :
    FailsAs Foreseen (r.mapError .codec) :=
  h.mapError fun _ he => he

section Link

variable {peer : Peer} (hlink : peer.IsLink) (line : Line)

include hlink

theorem failsAs_resultOf (earlier : List Bytes) (request : Bytes) :
    FailsAs Foreseen (line.resultOf (peer earlier request).outcome) := by
  rcases hlink earlier request with ⟨reply, hreply⟩ | ⟨endpoint, phase, fault, hfault⟩
  · rw [hreply]
    exact failsAs_codec (line.settings.failsAs_readFrame reply)
  · rw [hfault]
    exact .error trivial

theorem failsAs_attemptAll (request : Bytes) (started : Nat) :
    ∀ (retries : Nat) (s : Session) (w : Wire),
      FailsAs Foreseen ((attemptAll line request started retries s).run peer w).1.1
  | retries, s, w => by
    by_cases ht : line.Late peer started w
    · obtain ⟨_, _, -, hrun⟩ := run_attemptAll_late peer request started retries s w ht
      rw [hrun]
      exact .error trivial
    by_cases hr : line.settings.Retryable (peer w.requests request).outcome
    · cases retries with
      | zero =>
        rw [run_attemptAll_exhausted peer request started s w ht hr]
        exact failsAs_resultOf hlink line w.requests request
      | succ retries =>
        rw [run_attemptAll_again peer request started retries s w ht hr]
        exact failsAs_attemptAll request started retries _ _
    · rw [run_attemptAll_final peer request started retries s w ht hr]
      exact failsAs_resultOf hlink line w.requests request

theorem failsAs_transact (data : DataField) (s : Session) (w : Wire) :
    FailsAs Foreseen ((transact data).run peer line s w).1 := by
  by_cases hfit : data.size ≤ 243
  · have hattempts := failsAs_attemptAll hlink line
      (data.requestBytes (s.nextControl line.settings.sequence).1) (line.begun peer s w).clock
      (line.settings.attempts - 1) (s.opened line.settings.sequence) (line.begun peer s w)
    rwa [run_transact_fits hfit rfl]
  · rw [run_transact_tooLong peer line s w (Nat.lt_of_not_le hfit)]
    exact .error trivial

end Link

section Foresees

variable (peer : Peer) (line : Line) {α β : Type}

/-- The result is a value that the transactions show, or a failure that is foreseen. -/
def Ends (shows : List Transacted → α → Prop) (ts : List Transacted) : Except Failure α → Prop
  | .ok a => shows ts a
  | .error e => e.Foreseen

/-- The call comes to a value that its transactions show, or fails in a way that is foreseen. -/
def Foresees (x : ClientM α) (shows : List Transacted → α → Prop) : Prop :=
  Makes peer line x (Ends shows)

/-- The view shows something of every value in the shape. -/
def Shape.ShownBy (shape : Shape) (view : Record → Option α) : Prop :=
  ∀ record bs, Record.WrittenAs shape record bs → ∃ a, view record = some a

/-- One of the transactions read the object, and the view shows this of the record that came. -/
def Showed (ts : List Transacted) (id : ObjectId) (view : Record → Option α) (a : α) : Prop :=
  ∃ tr ∈ ts, ∃ frame record, tr.data = .readObject id ∧ tr.result = .ok frame
    ∧ id.decodePayload frame.data.payload = .ok record ∧ view record = some a

@[simp]
theorem showed_append {ts ts' : List Transacted} {id : ObjectId} {view : Record → Option α}
    {a : α} :
    Showed (ts ++ ts') id view a ↔ Showed ts id view a ∨ Showed ts' id view a := by
  simp only [Showed, List.mem_append, or_and_right, exists_or]

theorem Showed.imp {ts : List Transacted} {id : ObjectId} {view : Record → Option α} {a : α}
    {view' : Record → Option β} {b : β} (h : Showed ts id view a)
    (hview : ∀ record, view record = some a → view' record = some b) : Showed ts id view' b := by
  obtain ⟨tr, htr, frame, record, hdata, hresult, hdecode, ha⟩ := h
  exact ⟨tr, htr, frame, record, hdata, hresult, hdecode, hview record ha⟩

/-- What a view shows is shown by a value in the shape of the object. -/
theorem Showed.writtenAs {ts : List Transacted} {id : ObjectId} {view : Record → Option α} {a : α}
    (h : Showed ts id view a) : ∃ record bs, Record.WrittenAs id.shape record bs
      ∧ view record = some a := by
  obtain ⟨tr, -, frame, record, -, -, hdecode, ha⟩ := h
  obtain ⟨bs, hbs⟩ := ObjectId.writtenAs_of_decodePayload hdecode
  exact ⟨record, bs, hbs, ha⟩

theorem ends_append {shows : List Transacted → α → Prop} {ts ts' : List Transacted}
    {r : Except Failure α} :
    Ends (fun ts' a => shows (ts ++ ts') a) ts' r ↔ Ends shows (ts ++ ts') r := by
  cases r <;> rfl

variable {peer line} {x : ClientM α} {shows : List Transacted → α → Prop}

namespace Foresees

theorem mono {shows' : List Transacted → α → Prop} (hx : Foresees peer line x shows)
    (h : ∀ ts a, shows ts a → shows' ts a) : Foresees peer line x shows' :=
  Makes.mono hx fun
    | ts, .ok a, hshows => h ts a hshows
    | _, .error _, he => he

theorem pure {a : α} (h : shows [] a) : Foresees peer line (Pure.pure a) shows :=
  Makes.pure h

theorem throw {e : Failure} (h : e.Foreseen) :
    Foresees peer line (MonadExcept.throw e : ClientM α) shows :=
  Makes.throw h

theorem lift {r : Except Failure α} (hr : FailsAs Foreseen r) (h : ∀ a, r = .ok a → shows [] a) :
    Foresees peer line (liftM r : ClientM α) shows := by
  refine Makes.lift ?_
  rcases r with e | a
  · exact hr e rfl
  · exact h a rfl

theorem lift_codec {r : Except CodecFault α} (hr : FailsAs CodecFault.OfBytes r)
    (h : ∀ a, r = .ok a → shows [] a) : Foresees peer line (liftM r : ClientM α) shows := by
  refine Makes.lift_codec ?_
  rcases r with e | a
  · exact hr e rfl
  · exact h a rfl

theorem bind {f : α → ClientM β} {goal : List Transacted → β → Prop}
    (hx : Foresees peer line x shows)
    (hf : ∀ ts a, shows ts a → Foresees peer line (f a) fun ts' b => goal (ts ++ ts') b) :
    Foresees peer line (x >>= f) goal := by
  refine Makes.bind hx (fun ts a hshows => ?_) fun ts e he => he
  exact Makes.mono (hf ts a hshows) fun ts' r => ends_append.1

/-- A check in front of a call. -/
theorem lift_bind {r : Except Failure β} {f : β → ClientM α} (hr : FailsAs Foreseen r)
    (hf : ∀ b, r = .ok b → Foresees peer line (f b) shows) :
    Foresees peer line (liftM r >>= f) shows := by
  have hcheck : Foresees peer line (liftM r) fun ts b => ts = [] ∧ r = .ok b :=
    .lift hr fun b hb => ⟨rfl, hb⟩
  refine .bind hcheck fun ts b h => ?_
  obtain ⟨rfl, hb⟩ := h
  exact hf b hb

/-- A check that succeeds in front of a call. -/
theorem ok_bind {r : Except Failure β} {b : β} {f : β → ClientM α} (hr : r = .ok b)
    (hf : Foresees peer line (f b) shows) : Foresees peer line (liftM r >>= f) shows := by
  refine .lift_bind (hr ▸ .ok b) fun b' hb' => ?_
  obtain rfl : b = b' := Except.ok.inj (hr.symm.trans hb')
  exact hf

theorem tryCatch {handle : Failure → ClientM α} (hx : Foresees peer line x shows)
    (hh : ∀ ts e, e.Foreseen → Foresees peer line (handle e) fun ts' a => shows (ts ++ ts') a) :
    Foresees peer line (MonadExcept.tryCatch x handle) shows := by
  refine Makes.tryCatch hx (fun ts a hshows => hshows) fun ts e he => ?_
  exact Makes.mono (hh ts e he) fun ts' r => ends_append.1

theorem forM {f : β → ClientM PUnit} : ∀ {xs : List β},
    (∀ x ∈ xs, Foresees peer line (f x) fun _ _ => True) →
      Foresees peer line (xs.forM f) fun _ _ => True
  | [], _ => .pure trivial
  | x :: xs, hxs => by
    rw [List.forall_mem_cons] at hxs
    exact .bind hxs.1 fun _ _ _ => forM hxs.2

/-- A call for every element of a list. -/
theorem mapM {f : β → ClientM α} : ∀ {xs : List β},
    (∀ x ∈ xs, Foresees peer line (f x) fun _ _ => True) →
      Foresees peer line (xs.mapM f) fun _ _ => True
  | [], _ => by
    rw [List.mapM_nil]
    exact .pure trivial
  | x :: xs, hxs => by
    rw [List.forall_mem_cons] at hxs
    rw [List.mapM_cons]
    exact .bind hxs.1 fun _ _ _ => .bind (mapM hxs.2) fun _ _ _ => .pure trivial

section Objects

variable (hlink : peer.IsLink)

include hlink

theorem transact (data : DataField) : Foresees peer line (transact data) fun ts frame =>
    ∃ requests, ts = [⟨data, requests, .ok frame⟩] := by
  intro s w
  have hfails := failsAs_transact hlink line data s w
  rcases hrun : (MeterLink.transact data).run peer line s w with ⟨e | frame, s', w'⟩
  · rw [hrun] at hfails
    exact ⟨_, .cons hrun (.nil s' w'), hfails e rfl⟩
  · exact ⟨_, .cons hrun (.nil s' w'), _, rfl⟩

theorem writePayload (id : ObjectId) (payload : Bytes) :
    Foresees peer line (writePayload id payload) fun _ _ => True :=
  .bind (.transact hlink _) fun _ _ _ => .pure trivial

theorem writeRecord {id : ObjectId} {value : Record} {payload : Bytes}
    (h : id.encodePayload value = .ok payload) :
    Foresees peer line (writeRecord id value) fun _ _ => True := by
  have hpayload : Foresees peer line (liftM (id.encodePayload value)) fun _ _ => True :=
    .lift_codec (h ▸ .ok payload) fun _ _ => trivial
  exact .bind hpayload fun _ payload' _ =>
    .bind (.writePayload hlink id payload') fun _ _ _ => .pure trivial

theorem readRecord (id : ObjectId) :
    Foresees peer line (readRecord id) fun ts record => Showed ts id some record := by
  have hpayload : Foresees peer line (readPayload id) fun ts payload =>
      ∃ requests frame, ts = [⟨.readObject id, requests, .ok frame⟩]
        ∧ frame.data.payload = payload := by
    refine .bind (.transact hlink _) fun ts frame hts => .pure ?_
    obtain ⟨requests, rfl⟩ := hts
    exact ⟨requests, frame, rfl, rfl⟩
  refine .bind hpayload fun ts payload hts =>
    .lift_codec (Record.failsAs_decode _ _) fun record hrecord => ?_
  obtain ⟨requests, frame, rfl, rfl⟩ := hts
  exact ⟨_, List.mem_singleton_self _, frame, record, rfl, rfl, hrecord, rfl⟩

/-- A read succeeds if the view shows something of every value in the shape of the object. -/
theorem readView {id : ObjectId} {view : Record → Option α} (hview : id.shape.ShownBy view) :
    Foresees peer line (Meter.readView view id) fun ts a => Showed ts id view a := by
  refine .bind (.readRecord hlink id) fun ts record hrecord => ?_
  obtain ⟨_, bs, hbs, ⟨⟩⟩ := hrecord.writtenAs
  obtain ⟨a, ha⟩ := hview record bs hbs
  simp only [ha]
  refine .pure ?_
  rw [List.append_nil]
  exact hrecord.imp fun _ hsome => Option.some.inj hsome ▸ ha

end Objects

end Foresees

end Foresees

end MeterLink

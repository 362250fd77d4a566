import MeterLink.Proofs.Attempts
import MeterLink.Proofs.CatalogueRows
import MeterLink.Proofs.RecordOutcome

/-!
# The faults that readers find

Readers of bytes complain of the bytes: whatever they are given, none of them says that a value does
not fit its shape (`CodecFault.OfBytes`). What a record reader does accept is a value of the kind
that the shape announces, namely one that could have been written in that shape
(`ObjectId.writtenAs_of_decodePayload`).
-/

namespace MeterLink

/-- All failures of the computation have the property. -/
def FailsAs {ε α : Type} (P : ε → Prop) (x : Except ε α) : Prop := ∀ e, x = .error e → P e

namespace FailsAs

variable {ε δ α β : Type} {P : ε → Prop}

theorem ok (a : α) : FailsAs P (.ok a) := nofun

theorem error {e : ε} (h : P e) : FailsAs P (.error e : Except ε α) := by
  rintro _ ⟨⟩
  exact h

theorem bind {x : Except ε α} {f : α → Except ε β} (hx : FailsAs P x)
    (hf : ∀ a, FailsAs P (f a)) : FailsAs P (x >>= f) := by
  intro e he
  cases x with
  | error e' =>
    cases he
    exact hx e rfl
  | ok a => exact hf a e he

theorem mapError {Q : δ → Prop} {x : Except ε α} {g : ε → δ} (hx : FailsAs P x)
    (hg : ∀ e, P e → Q (g e)) : FailsAs Q (x.mapError g) := by
  intro e he
  cases x with
  | error e' =>
    cases he
    exact hg e' (hx e' rfl)
  | ok a => cases he

theorem ite {c : Prop} [Decidable c] {x y : Except ε α} (hx : FailsAs P x) (hy : FailsAs P y) :
    FailsAs P (if c then x else y) := by
  split_ifs
  · exact hx
  · exact hy

end FailsAs

/-- The fault is one of the bytes, not one of a value that does not fit its shape. -/
def CodecFault.OfBytes : CodecFault → Prop
  | .mismatch .. => False
  | _ => True

open CodecFault (OfBytes)

/-! ## Records -/

theorem failsAs_takeExact (n : Nat) (buf : Bytes) : FailsAs OfBytes (takeExact n buf) :=
  .ite (.ok _) (.error trivial)

theorem failsAs_readAscii (bs : Bytes) : FailsAs OfBytes (readAscii bs) := by
  unfold readAscii
  split
  · exact .error trivial
  · exact .ok _

theorem Record.failsAs_decode (shape : Shape) (buf : Bytes) :
    FailsAs OfBytes (decode shape buf) := by
  cases shape with
  | ascii extent =>
    cases extent with
    | fixed n =>
      exact .bind (failsAs_takeExact n buf) fun bs => .bind (failsAs_readAscii bs) fun _ => .ok _
    | remainder => exact .bind (failsAs_readAscii buf) fun _ => .ok _
  | block extent =>
    cases extent with
    | fixed n => exact .bind (failsAs_takeExact n buf) fun _ => .ok _
    | remainder => exact .ok _
  | payment =>
    simp only [decode]
    split_ifs
    · exact .ok _
    · exact .error trivial
  | empty => exact .ok _
  | _ => exact .bind (failsAs_takeExact _ buf) fun _ => .ok _

/-- A payload that is read for an object holds a value in the object's shape. -/
theorem ObjectId.writtenAs_of_decodePayload {id : ObjectId} {payload : Bytes} {record : Record}
    (h : id.decodePayload payload = .ok record) : ∃ bs, Record.WrittenAs id.shape record bs :=
  Record.writtenAs_of_decode_eq_ok id.isRegular_shape.fitsWord id.not_overflows_shape h

/-! ## Data fields and frames -/

theorem FieldFormat.failsAs_ofTag (tag : UInt8) : FailsAs OfBytes (ofTag tag) := by
  rcases ofTag_cases tag with ⟨format, h, -⟩ | ⟨-, h⟩
  · exact h ▸ .ok format
  · exact h ▸ .error trivial

theorem Access.failsAs_ofFlag (flag : UInt8) : FailsAs OfBytes (ofFlag flag) := by
  rcases ofFlag_cases flag with ⟨access, h, -⟩ | ⟨-, h⟩
  · exact h ▸ .ok access
  · exact h ▸ .error trivial

namespace DataField

theorem failsAs_decodeObject : ∀ body : Bytes, FailsAs OfBytes (decodeObject body)
  | _ :: _ :: _ :: flag :: _ => .bind (Access.failsAs_ofFlag flag) fun _ => .ok _
  | [] | [_] | [_, _] | [_, _, _] => .error trivial

theorem failsAs_decodeProfile (log : ProfileLog) :
    ∀ body : Bytes, FailsAs OfBytes (decodeProfile log body)
  | t₀ :: t₁ :: t₂ :: t₃ :: rest => by
    simp only [decodeProfile]
    split_ifs
    · exact .ok _
    · exact .ok _
    · exact .error trivial
  | [] | [_] | [_, _] | [_, _, _] => .error trivial

theorem failsAs_decode : ∀ field : Bytes, FailsAs OfBytes (decode field)
  | [] => .error trivial
  | tag :: body => .bind (FieldFormat.failsAs_ofTag tag) fun
    | .object => failsAs_decodeObject body
    | .profile log => failsAs_decodeProfile log body

end DataField

namespace Frame

theorem failsAs_wholeSize (buf : Bytes) : FailsAs OfBytes (wholeSize buf) := by
  unfold wholeSize
  split
  · exact .error trivial
  · exact .ite (.error trivial) (.ite (.error trivial) (.ite (.error trivial)
      (.ite (.error trivial) (.ok _))))

theorem failsAs_verify (whole : Bytes) : FailsAs OfBytes (verify whole) :=
  .ite (.error trivial) (.ite (.ok _) (.error trivial))

theorem failsAs_parse (whole : Bytes) : FailsAs OfBytes (parse whole) := by
  unfold parse
  split
  · exact .bind (DataField.failsAs_decode _) fun _ => .ok _
  · exact .error trivial

theorem failsAs_decode (buf : Bytes) : FailsAs OfBytes (decode buf) :=
  .bind (failsAs_wholeSize buf) fun _ => failsAs_parse _

theorem failsAs_decodeVerified (buf : Bytes) : FailsAs OfBytes (decodeVerified buf) :=
  .bind (failsAs_wholeSize buf) fun _ => .bind (failsAs_verify _) fun _ => failsAs_parse _

end Frame

theorem TransactionSettings.failsAs_readFrame (settings : TransactionSettings) (reply : Bytes) :
    FailsAs OfBytes (settings.readFrame reply) :=
  .ite (Frame.failsAs_decodeVerified reply) (Frame.failsAs_decode reply)

end MeterLink

import MeterLink.Proofs.PackedFields

/-!
# A record is written in whole or not at all

The parts of a record are put into the buffer one by one, and no check comes after the first of
them: what a value writes to a buffer are its bytes, or nothing if it has none in the shape
(`appends_emit`). The word of a packed record is complete before a byte of it is written
(`packWord_zip`).
-/

namespace MeterLink

open Writer (Appends appends_throw)

/-- The values are checked one by one, so that the first that is too large is reported. -/
theorem packWord_zip : ∀ (layout : List BitField) (values : List UInt32) (word : Nat),
    packWord word (layout.zip values) = match overflow? layout values with
      | some (f, v) => .error (.fieldOverflow f.name v f.bits)
      | none => .ok (packOnto word layout values)
  | [], _, _ => rfl
  | _ :: _, [], _ => rfl
  | f :: fs, v :: vs, word => by
    have ih := packWord_zip fs vs ((word <<< f.bits) ||| v.toNat)
    simp only [overflow?, List.zip_cons_cons, packWord, List.find?_cons] at ih ⊢
    by_cases hv : 1 <<< f.bits ≤ v.toNat
    · simp only [hv, if_true, decide_true]
    · have hlt : v.toNat < 2 ^ f.bits := by
        rw [← Nat.one_shiftLeft]
        exact Nat.lt_of_not_le hv
      simp only [hv, if_false, decide_false, ih, packOnto_cons,
        Nat.shiftLeft_add_eq_or_of_lt hlt]

theorem appends_emitAscii (extent : Extent) (s : String) :
    Appends (emitAscii extent s) (writeAscii extent s) := by
  refine .ite ?_ (appends_throw _)
  cases extent with
  | remainder => exact Writer.appends_emit _
  | fixed n => exact .ite ((Writer.appends_emit _).andThen (Writer.appends_emit _)) (appends_throw _)

theorem appends_emitFields (layout : List BitField) (fields : List (String × UInt32)) :
    Appends (emitFields layout fields) (writeFields layout fields) := by
  refine .ite (appends_throw _) ?_
  have hword : (packWord 0 (layout.zip (fields.map Prod.snd)) >>= fun word =>
      .ok (bigEndian (totalBits layout / 8) word))
      = match overflow? layout (fields.map Prod.snd) with
        | some (f, v) => .error (.fieldOverflow f.name v f.bits)
        | none =>
          .ok (bigEndian (totalBits layout / 8) (packFields layout (fields.map Prod.snd))) := by
    rw [packWord_zip]
    rcases overflow? layout (fields.map Prod.snd) with _ | ⟨f, v⟩
    · rfl
    · rfl
  have hbytes : Appends (liftM (packWord 0 (layout.zip (fields.map Prod.snd))) >>= fun word =>
      Writer.emit (bigEndian (totalBits layout / 8) word)) _ :=
    .afterCheck fun word => Writer.appends_emit _
  rw [hword] at hbytes
  exact hbytes

namespace Record

theorem appends_emit (shape : Shape) (r : Record) : Appends (r.emit shape) (r.write shape) := by
  cases shape with
  | ascii extent =>
    cases r with
    | text s => exact appends_emitAscii extent s
    | _ => exact appends_throw _
  | bits layout =>
    cases r with
    | bits fields => exact appends_emitFields layout fields
    | _ => exact appends_throw _
  | u16s n =>
    cases r with
    | u16s vs => exact .ite (.forM (fun v => Writer.appends_emit _) vs) (appends_throw _)
    | _ => exact appends_throw _
  | block extent =>
    cases extent with
    | remainder =>
      cases r with
      | block bs => exact Writer.appends_emit bs
      | _ => exact appends_throw _
    | fixed n =>
      cases r with
      | block bs => exact .ite (Writer.appends_emit bs) (appends_throw _)
      | _ => exact appends_throw _
  | payment =>
    cases r with
    | payment p =>
      have hparts := (Writer.appends_emit p.reserved).andThen
        ((Writer.appends_emit (littleEndian 4 p.time.toNat)).andThen
          (Writer.appends_emit (writeInt32 p.value)))
      rwa [← List.append_assoc] at hparts
    | _ => exact appends_throw _
  | empty =>
    cases r with
    | empty => exact Writer.appends_pure
    | _ => exact appends_throw _
  | _ =>
    cases r <;> first | exact Writer.appends_emit _ | exact appends_throw _

theorem appendTo_eq (shape : Shape) (r : Record) (out : Bytes) : r.appendTo shape out
    = match r.write shape with
      | .ok bs => (.ok (), out ++ bs)
      | .error misfit => (.error (.mismatch shape misfit), out) := by
  rw [appendTo, appends_emit shape r out]
  rcases r.write shape with misfit | bs
  · rfl
  · rfl

/-- The bytes written to an empty buffer are those of the value. -/
theorem encode_eq (shape : Shape) (r : Record) :
    r.encode shape = (r.write shape).mapError (.mismatch shape) := by
  rw [encode, appendTo_eq]
  rcases r.write shape with misfit | bs
  · rfl
  · rfl

end Record

end MeterLink

import MeterLink.Proofs.PaddedText
import MeterLink.Proofs.RecordWriting

/-!
# Records are read back as they were written, and written back as they were read

A shape of fixed width reads so many bytes and no others (`decode_of_width`). On exactly these
bytes reading and writing undo each other: numbers by their bytes, packed fields and texts by the
modules on them. What is lost lies in two kinds of value only, texts that end in NUL and days of
the week that are given as an unknown code although it is the code of a named day (`IsCanonical`).

The width is the size unless that is too large for a word (`Shape.Overflows`). No buffer holds a
value of such a shape (`WrittenAs.not_overflows`), but payloads are read in it all the same, as values
that cannot be written (`encode_of_overflow`).
-/

namespace MeterLink

theorem takeExact_eq_ok_iff {n : Nat} {buf bs : Bytes} :
    takeExact n buf = .ok bs ↔ n ≤ buf.length ∧ bs = buf.take n := by
  rw [takeExact]
  split_ifs with h
  · simp [h, eq_comm]
  · simp [h]

theorem takeExact_length (bs : Bytes) : takeExact bs.length bs = .ok bs :=
  takeExact_eq_ok_iff.2 ⟨Nat.le_refl _, List.take_length.symm⟩

/-- Taking the same number of bytes twice changes nothing. -/
theorem takeExact_bind {α : Type} (n : Nat) (buf : Bytes) (f : Bytes → Except CodecFault α) :
    (takeExact n buf >>= fun bs => takeExact n bs >>= f) = takeExact n buf >>= f := by
  rcases h : takeExact n buf with e | bs
  · rfl
  · obtain ⟨hle, rfl⟩ := takeExact_eq_ok_iff.1 h
    have hlen := List.length_take_of_le hle
    have hagain : takeExact n (buf.take n) = .ok (buf.take n) := by
      have hall := takeExact_length (buf.take n)
      rwa [hlen] at hall
    simp only [bind, Except.bind, hagain]

/-! ## Numbers -/

theorem readInt32_writeInt32 (v : Int32) : readInt32 (writeInt32 v) = v := by
  rw [readInt32, writeInt32, ofLittleEndian_u32]
  rfl

theorem writeInt32_readInt32 {bs : Bytes} (h : bs.length = 4) : writeInt32 (readInt32 bs) = bs :=
  littleEndian_u32 h

theorem read16s_flatMap : ∀ vs : List UInt16,
    read16s (vs.flatMap fun v => littleEndian 2 v.toNat) = vs
  | [] => rfl
  | v :: vs => by
    have ih := read16s_flatMap vs
    have hv := ofLittleEndian_u16 v
    simp only [littleEndian] at ih hv
    simp only [List.flatMap_cons, littleEndian, List.cons_append, List.nil_append, read16s, ih, hv]

theorem flatMap_read16s : ∀ {n : Nat} {bs : Bytes}, bs.length = 2 * n →
    (read16s bs).length = n ∧ ((read16s bs).flatMap fun v => littleEndian 2 v.toNat) = bs
  | 0, [], _ => ⟨rfl, rfl⟩
  | n + 1, a :: b :: rest, h => by
    have hrest : rest.length = 2 * n := by
      simp only [List.length_cons] at h
      omega
    obtain ⟨hlen, hread⟩ := flatMap_read16s hrest
    refine ⟨congrArg (· + 1) hlen, ?_⟩
    rw [read16s, List.flatMap_cons, hread, littleEndian_u16 rfl]
    rfl
  | n + 1, [a], h => by simp at h; omega

theorem writeFields_eq_ok_iff {layout : List BitField} {fields : List (String × UInt32)}
    {bs : Bytes} : writeFields layout fields = .ok bs ↔
      layout.map BitField.name = fields.map Prod.fst ∧ Fit layout (fields.map Prod.snd)
      ∧ bs = bigEndian (totalBits layout / 8) (packFields layout (fields.map Prod.snd)) := by
  unfold writeFields
  split_ifs with hnames
  · simp [hnames]
  · rw [not_not] at hnames
    have hlen : layout.length = (fields.map Prod.snd).length := by
      simpa using congrArg List.length hnames
    simp only [hnames, true_and, ← overflow?_eq_none_iff hlen]
    split
    · rename_i hsome
      simp [hsome]
    · rename_i hnone
      simp [hnone, eq_comm]

/-- A packed layout takes whole bytes, at most eight, and its fields hold numbers of 32 bits. -/
def Shape.IsRegular : Shape → Prop
  | .bits layout => (∀ f ∈ layout, 1 ≤ f.bits ∧ f.bits ≤ 32) ∧ 8 ∣ totalBits layout
    ∧ totalBits layout ≤ 64
  | _ => True

/-- A packed layout has fields of one to 32 bits and takes a word of 64 bits at most. -/
def Shape.FitsWord : Shape → Prop
  | .bits layout => (∀ f ∈ layout, 1 ≤ f.bits ∧ f.bits ≤ 32) ∧ totalBits layout ≤ 64
  | _ => True

/-- The size of an array is too large for a word of 64 bits. -/
def Shape.Overflows : Shape → Prop
  | .u16s n => 1 <<< 64 ≤ 2 * n
  | _ => False

instance Shape.decidableOverflows : (shape : Shape) → Decidable shape.Overflows
  | .u16s _ => inferInstanceAs (Decidable (_ ≤ _))
  | .u8 | .u16 | .u32 | .i32 | .ascii _ | .bits _ | .block _ | .clock | .payment | .empty =>
    .isFalse id

theorem Shape.width?_eq_size? {shape : Shape} (h : ¬ shape.Overflows) :
    shape.width? = shape.size? := by
  cases shape with
  | u16s n => exact congrArg some (Nat.mod_eq_of_lt (Nat.lt_of_not_le h))
  | _ => rfl

theorem Shape.IsRegular.fitsWord {shape : Shape} (h : shape.IsRegular) : shape.FitsWord := by
  cases shape with
  | bits layout => exact ⟨h.1, h.2.2⟩
  | _ => trivial

namespace Record

/-- A text that does not end in NUL, a clock whose day of the week came from its byte, and every
value of another kind. -/
def IsCanonical : Record → Prop
  | .text s => s.toList.getLast? ≠ some '\x00'
  | .clock t => ∃ code, t.weekday = Weekday.ofCode code
  | _ => True

/-- The bytes that a value has in a shape. -/
inductive WrittenAs : Shape → Record → Bytes → Prop
  | u8 (v : UInt8) : WrittenAs .u8 (.u8 v) [v]
  | u16 (v : UInt16) : WrittenAs .u16 (.u16 v) (littleEndian 2 v.toNat)
  | u32 (v : UInt32) : WrittenAs .u32 (.u32 v) (littleEndian 4 v.toNat)
  | i32 (v : Int32) : WrittenAs .i32 (.i32 v) (writeInt32 v)
  | text {s : String} (ascii : isAscii s = true) :
    WrittenAs (.ascii .remainder) (.text s) (asciiBytes s)
  | paddedText {s : String} {n : Nat} (ascii : isAscii s = true) (le : s.length ≤ n) :
    WrittenAs (.ascii (.fixed n)) (.text s) (asciiBytes s ++ List.replicate (n - s.length) 0)
  | bits {layout : List BitField} {fields : List (String × UInt32)}
    (names : layout.map BitField.name = fields.map Prod.fst)
    (fit : Fit layout (fields.map Prod.snd)) : WrittenAs (.bits layout) (.bits fields)
      (bigEndian (totalBits layout / 8) (packFields layout (fields.map Prod.snd)))
  | u16s (vs : List UInt16) :
    WrittenAs (.u16s vs.length) (.u16s vs) (vs.flatMap fun v => littleEndian 2 v.toNat)
  | rest (bs : Bytes) : WrittenAs (.block .remainder) (.block bs) bs
  | block (bs : Bytes) : WrittenAs (.block (.fixed bs.length)) (.block bs) bs
  | clock (t : ClockReading) : WrittenAs .clock (.clock t) (writeClock t)
  | payment (p : Payment) : WrittenAs .payment (.payment p)
      (p.reserved ++ littleEndian 4 p.time.toNat ++ writeInt32 p.value)
  | empty : WrittenAs .empty .empty []

theorem writtenAs_of_write {shape : Shape} {r : Record} {bs : Bytes}
    (h : r.write shape = .ok bs) : WrittenAs shape r bs := by
  cases shape with
  | ascii extent =>
    cases r with
    | text s =>
      obtain ⟨hascii, hbs⟩ := writeAscii_eq_ok_iff.1 h
      cases extent with
      | remainder =>
        rw [hbs]
        exact .text hascii
      | fixed n =>
        rw [hbs.2]
        exact .paddedText hascii hbs.1
    | _ => cases h
  | bits layout =>
    cases r with
    | bits fields =>
      obtain ⟨hnames, hfit, rfl⟩ := writeFields_eq_ok_iff.1 h
      exact .bits hnames hfit
    | _ => cases h
  | u16s n =>
    cases r with
    | u16s vs =>
      have hif : (if vs.length = n then _ else _) = Except.ok bs := h
      split_ifs at hif with hlen
      cases hif
      exact hlen ▸ .u16s vs
    | _ => cases h
  | block extent =>
    cases extent with
    | remainder =>
      cases r with
      | block bs =>
        cases h
        exact .rest bs
      | _ => cases h
    | fixed n =>
      cases r with
      | block bs =>
        have hif : (if bs.length = n then _ else _) = Except.ok _ := h
        split_ifs at hif with hlen
        cases hif
        exact hlen ▸ .block bs
      | _ => cases h
  | _ =>
    cases r <;> cases h
    constructor

theorem write_eq_ok_iff {shape : Shape} {r : Record} {bs : Bytes} :
    r.write shape = .ok bs ↔ WrittenAs shape r bs := by
  refine ⟨writtenAs_of_write, fun h => ?_⟩
  cases h with
  | text hascii => exact (@writeAscii_eq_ok_iff .remainder _ _).2 ⟨hascii, rfl⟩
  | paddedText hascii hle => exact (@writeAscii_eq_ok_iff (.fixed _) _ _).2 ⟨hascii, hle, rfl⟩
  | bits hnames hfit => exact writeFields_eq_ok_iff.2 ⟨hnames, hfit, rfl⟩
  | u16s vs => exact if_pos rfl
  | block bs => exact if_pos rfl
  | _ => rfl

theorem encode_eq_ok_iff {shape : Shape} {r : Record} {bs : Bytes} :
    r.encode shape = .ok bs ↔ WrittenAs shape r bs := by
  rw [← write_eq_ok_iff, encode_eq]
  cases r.write shape <;> simp [Except.mapError]

/-- A shape of fixed width reads so many bytes and no others. -/
theorem decode_of_width {shape : Shape} {w : Nat} (hw : shape.width? = some w) (buf : Bytes) :
    decode shape buf = takeExact w buf >>= decode shape := by
  cases shape with
  | ascii extent =>
    cases extent with
    | fixed n =>
      cases hw
      exact (takeExact_bind _ buf _).symm
    | remainder => cases hw
  | block extent =>
    cases extent with
    | fixed n =>
      cases hw
      exact (takeExact_bind _ buf _).symm
    | remainder => cases hw
  | payment =>
    cases hw
    by_cases h : 16 ≤ buf.length
    · simp [decode, takeExact, h, bind, Except.bind, List.take_take, List.drop_take]
    · simp [decode, takeExact, h, bind, Except.bind]
  | empty =>
    cases hw
    rfl
  | _ =>
    cases hw
    exact (takeExact_bind _ buf _).symm

/-! ## Reading what was written -/

section Written

variable {shape : Shape} {r : Record} {bs : Bytes}

theorem WrittenAs.length_eq (h : WrittenAs shape r bs) {w : Nat} (hw : shape.size? = some w) :
    bs.length = w := by
  cases h with
  | text => cases hw
  | rest => cases hw
  | paddedText hascii hle =>
    cases hw
    rw [List.length_append, length_asciiBytes, List.length_replicate]
    omega
  | bits =>
    cases hw
    exact length_bigEndian _ _
  | u16s vs =>
    cases hw
    simp [List.length_flatMap, Nat.mul_comm]
  | payment p =>
    cases hw
    simp [p.length_reserved, writeInt32]
  | _ =>
    cases hw
    rfl

/-- An array whose size is too large for a word does not fit a buffer. -/
theorem WrittenAs.not_overflows (h : WrittenAs shape r bs) (hlen : bs.length < 1 <<< 64) :
    ¬ shape.Overflows := by
  cases h with
  | u16s vs => exact Nat.not_le.2 ((WrittenAs.u16s vs).length_eq rfl ▸ hlen)
  | _ => exact id

theorem WrittenAs.length_width (h : WrittenAs shape r bs) (hover : ¬ shape.Overflows) {w : Nat}
    (hw : shape.width? = some w) : bs.length = w :=
  h.length_eq ((Shape.width?_eq_size? hover).symm.trans hw)

theorem decode_payment (p : Payment) :
    decode .payment (p.reserved ++ littleEndian 4 p.time.toNat ++ writeInt32 p.value)
      = .ok (.payment p) := by
  obtain ⟨reserved, time, value, hlen⟩ := p
  have htime : (littleEndian 4 time.toNat).length = 4 := length_littleEndian _ _
  have hvalue : (writeInt32 value).length = 4 := length_littleEndian _ _
  have hsize : 16 ≤ (reserved ++ (littleEndian 4 time.toNat ++ writeInt32 value)).length := by
    simp only [List.length_append]
    omega
  have h12 : (reserved ++ (littleEndian 4 time.toNat ++ writeInt32 value)).drop 12
      = writeInt32 value := by
    rw [← List.append_assoc, List.drop_left' (by rw [List.length_append, hlen, htime])]
  simp only [List.append_assoc]
  rw [decode, dif_pos hsize]
  simp only [h12, List.take_left' hlen, List.drop_left' hlen, List.take_left' htime,
    ofLittleEndian_u32, List.take_of_length_le (Nat.le_of_eq hvalue), readInt32_writeInt32]

theorem WrittenAs.decode_eq (h : WrittenAs shape r bs) (hs : shape.IsRegular)
    (hover : ¬ shape.Overflows) (hr : r.IsCanonical) : decode shape bs = .ok r := by
  -- The bytes have the width of the shape, so nothing is cut off.
  have htake {w : Nat} (hw : shape.width? = some w) : takeExact w bs = .ok bs :=
    h.length_width hover hw ▸ takeExact_length bs
  cases h with
  | u8 v =>
    have hv : UInt8.ofNat (ofLittleEndian [v]) = v := UInt8.ofNat_toNat
    simp only [decode, htake rfl, bind, Except.bind, hv]
    rfl
  | u16 v => simp only [decode, htake rfl, bind, Except.bind, ofLittleEndian_u16]; rfl
  | u32 v => simp only [decode, htake rfl, bind, Except.bind, ofLittleEndian_u32]; rfl
  | i32 v => simp only [decode, htake rfl, bind, Except.bind, readInt32_writeInt32]; rfl
  | text hascii =>
    have hread := readAscii_padded hascii hr 0
    rw [List.replicate_zero, List.append_nil] at hread
    simp only [decode, hread, bind, Except.bind]
    rfl
  | paddedText hascii hle =>
    simp only [decode, htake rfl, bind, Except.bind, readAscii_padded hascii hr]
    rfl
  | @bits layout fields hnames hfit =>
    obtain ⟨-, ⟨n, hn⟩, -⟩ := hs
    have hword : ofBigEndian (bigEndian (totalBits layout / 8)
        (packFields layout (fields.map Prod.snd))) = packFields layout (fields.map Prod.snd) := by
      rw [ofBigEndian_bigEndian, Nat.mul_div_cancel' ⟨n, hn⟩, Nat.mod_eq_of_lt (packFields_lt hfit)]
    have hread := readFields_packOnto 0 hfit
    rw [packOnto_zero, hnames, List.zip_map', List.map_id'' fun _ => rfl] at hread
    simp only [decode, htake rfl, bind, Except.bind, hword, hread]
    rfl
  | u16s vs => simp only [decode, htake rfl, bind, Except.bind, read16s_flatMap]; rfl
  | rest => rfl
  | block => simp only [decode, htake rfl, bind, Except.bind]; rfl
  | clock t =>
    obtain ⟨code, hcode⟩ := hr
    have hread : readClock (writeClock t) = t := by
      simp only [readClock, writeClock, hcode, Weekday.code_ofCode]
      rw [← hcode]
    simp only [decode, htake rfl, bind, Except.bind, hread]
    rfl
  | payment p => exact decode_payment p
  | empty => rfl

/-- A shape of fixed width does not look at what follows. -/
theorem WrittenAs.decode_append (h : WrittenAs shape r bs) (hs : shape.IsRegular)
    (hover : ¬ shape.Overflows) (hr : r.IsCanonical) {w : Nat} (hw : shape.width? = some w)
    (t : Bytes) : decode shape (bs ++ t) = .ok r := by
  have hlen := h.length_width hover hw
  have htake : takeExact w (bs ++ t) = .ok bs :=
    takeExact_eq_ok_iff.2 ⟨by simp [hlen], (List.take_left' hlen).symm⟩
  rw [decode_of_width hw, htake]
  exact h.decode_eq hs hover hr

end Written

/-! ## Writing what was read -/

theorem writeClock_readClock : ∀ {bs : Bytes}, bs.length = 7 → writeClock (readClock bs) = bs
  | [y, mo, d, h, mi, s, w], _ => by simp only [writeClock, readClock, Weekday.code_ofCode]

theorem writtenAs_of_decode {shape : Shape} {r : Record} {bs : Bytes} (hs : shape.FitsWord)
    (hover : ¬ shape.Overflows) (hw : shape.width? = some bs.length)
    (h : decode shape bs = .ok r) : WrittenAs shape r bs := by
  have htake {w : Nat} (hwidth : shape.width? = some w) : takeExact w bs = .ok bs :=
    Option.some.inj (hw.symm.trans hwidth) ▸ takeExact_length bs
  have hlen {w : Nat} (hwidth : shape.width? = some w) : bs.length = w :=
    Option.some.inj (hw.symm.trans hwidth)
  cases shape with
  | u8 =>
    obtain ⟨b, rfl⟩ := List.length_eq_one_iff.1 (hlen rfl)
    have hb : UInt8.ofNat (ofLittleEndian [b]) = b := UInt8.ofNat_toNat
    simp only [decode, htake rfl, bind, Except.bind, hb] at h
    cases h
    exact .u8 b
  | u16 =>
    simp only [decode, htake rfl, bind, Except.bind] at h
    cases h
    have hform := WrittenAs.u16 (UInt16.ofNat (ofLittleEndian bs))
    rwa [littleEndian_u16 (hlen rfl)] at hform
  | u32 =>
    simp only [decode, htake rfl, bind, Except.bind] at h
    cases h
    have hform := WrittenAs.u32 (UInt32.ofNat (ofLittleEndian bs))
    rwa [littleEndian_u32 (hlen rfl)] at hform
  | i32 =>
    simp only [decode, htake rfl, bind, Except.bind] at h
    cases h
    have hform := WrittenAs.i32 (readInt32 bs)
    rwa [writeInt32_readInt32 (hlen rfl)] at hform
  | ascii extent =>
    cases extent with
    | remainder => cases hw
    | fixed n =>
      obtain rfl := hlen rfl
      simp only [decode, htake rfl, bind, Except.bind] at h
      rcases hread : readAscii bs with e | s
      · rw [hread] at h
        cases h
      · rw [hread] at h
        cases h
        exact write_eq_ok_iff.1 (writeAscii_readAscii hread)
  | bits layout =>
    have h32 : ∀ f ∈ layout, f.bits ≤ 32 := fun f hf => (hs.1 f hf).2
    -- bits beyond the last whole byte stay zero at the top of the word
    have hword : ofBigEndian bs < 1 <<< totalBits layout := by
      refine Nat.lt_of_lt_of_le (ofBigEndian_lt bs) ?_
      rw [hlen rfl, Nat.one_shiftLeft, Nat.one_shiftLeft]
      exact Nat.pow_le_pow_right (by decide) (Nat.mul_div_le ..)
    simp only [decode, htake rfl, bind, Except.bind] at h
    cases h
    have hform := WrittenAs.bits (readFields_names _ (totalBits layout) layout).symm
      (fit_readFields (ofBigEndian bs) (totalBits layout) h32)
    rwa [packFields_readFields h32 hword, ← hlen rfl, bigEndian_ofBigEndian] at hform
  | u16s n =>
    simp only [decode, htake rfl, bind, Except.bind] at h
    cases h
    have hsize : bs.length = 2 * n := (hlen rfl).trans (Nat.mod_eq_of_lt (Nat.lt_of_not_le hover))
    obtain ⟨hcount, hbytes⟩ := flatMap_read16s hsize
    have hform := WrittenAs.u16s (read16s bs)
    rwa [hcount, hbytes] at hform
  | block extent =>
    cases extent with
    | remainder => cases hw
    | fixed n =>
      obtain rfl := hlen rfl
      simp only [decode, htake rfl, bind, Except.bind] at h
      cases h
      exact .block bs
  | clock =>
    simp only [decode, htake rfl, bind, Except.bind] at h
    cases h
    have hform := WrittenAs.clock (readClock bs)
    rwa [writeClock_readClock (hlen rfl)] at hform
  | payment =>
    have h16 : bs.length = 16 := hlen rfl
    have htime : ((bs.drop 8).take 4).length = 4 := by
      rw [List.length_take, List.length_drop, h16]
      rfl
    have hvalue : (bs.drop 12).length = 4 := by rw [List.length_drop, h16]
    have hjoin : bs.take 8 ++ (bs.drop 8).take 4 ++ bs.drop 12 = bs := by
      have hdrop : bs.drop 12 = (bs.drop 8).drop 4 := by rw [List.drop_drop]
      rw [hdrop, List.append_assoc, List.take_append_drop, List.take_append_drop]
    rw [decode, dif_pos (Nat.le_of_eq h16.symm)] at h
    simp only [List.take_of_length_le (Nat.le_of_eq hvalue)] at h
    cases h
    have hform := WrittenAs.payment ⟨bs.take 8, UInt32.ofNat (ofLittleEndian ((bs.drop 8).take 4)),
      readInt32 (bs.drop 12), by simp only [List.length_take]; omega⟩
    rwa [littleEndian_u32 htime, writeInt32_readInt32 hvalue, hjoin] at hform
  | empty =>
    cases h
    rw [List.length_eq_zero_iff.1 (hlen rfl)]
    exact .empty

/-- What was read in a shape of fixed width is written as the bytes of that width. -/
theorem encode_of_decode {shape : Shape} (hs : shape.FitsWord) (hover : ¬ shape.Overflows) {w : Nat}
    (hw : shape.width? = some w) {buf : Bytes} {r : Record} (h : decode shape buf = .ok r) :
    w ≤ buf.length ∧ r.encode shape = .ok (buf.take w) := by
  rw [decode_of_width hw] at h
  rcases htake : takeExact w buf with e | bs <;> rw [htake] at h
  · cases h
  · obtain ⟨hle, rfl⟩ := takeExact_eq_ok_iff.1 htake
    refine ⟨hle, encode_eq_ok_iff.2 (writtenAs_of_decode hs hover ?_ h)⟩
    rw [hw, List.length_take_of_le hle]

end Record

end MeterLink

import MeterLink.Proofs.RecordOutcome

/-!
# A buffer gets a whole record or nothing

A value that fits its shape adds the same bytes to every buffer, as many as the shape or the value
says; one that does not fit leaves the buffer as it was (`appendTo_whole_or_nothing`). The word of
a packed record is built on 64 bits without losing any of them (`packWord64?_eq`), and its low
bytes are written.
-/

namespace MeterLink

/-- The fields of a packed layout have less than 64 bits, and there are 64 at most. -/
def Shape.Packable : Shape → Prop
  | .bits layout => (∀ f ∈ layout, f.bits ≤ 63) ∧ totalBits layout ≤ 64
  | _ => True

/-! ## Words of 64 bits -/

/-- The word of the values as it is built on 64 bits, unless a shift has too many places. -/
def packWord64? (word : UInt64) : List (BitField × UInt32) → Option (Except Misfit UInt64)
  | [] => some (.ok word)
  | (f, v) :: rest => do
    let width ← places? f.bits
    if 1 <<< width ≤ v.toUInt64 then return .error (.fieldOverflow f.name v f.bits)
    else packWord64? ((word <<< width) ||| v.toUInt64) rest

theorem shiftLeft_lt {word n : Nat} (h : word < 1 <<< n) (b : Nat) :
    word <<< b < 1 <<< (n + b) := by
  rw [Nat.one_shiftLeft] at h ⊢
  rw [Nat.shiftLeft_eq, Nat.pow_add]
  exact Nat.mul_lt_mul_of_pos_right h (Nat.two_pow_pos b)

theorem push_lt {word v n b : Nat} (hword : word < 1 <<< n) (hv : v < 1 <<< b) :
    (word <<< b) ||| v < 1 <<< (n + b) := by
  have hshift := shiftLeft_lt hword b
  rw [Nat.one_shiftLeft] at hv hshift ⊢
  refine Nat.or_lt_two_pow hshift (Nat.lt_of_lt_of_le hv ?_)
  exact Nat.pow_le_pow_right (by decide) (Nat.le_add_left b n)

/-- The bits that are in the word already and those of the fields to come have room in it. -/
theorem packWord64?_eq : ∀ {ps : List (BitField × UInt32)} {word : UInt64} {n : Nat},
    (∀ p ∈ ps, p.1.bits ≤ 63) → word.toNat < 1 <<< n → n + totalBits (ps.map Prod.fst) ≤ 64 →
    ∃ run, packWord64? word ps = some run ∧ run.map UInt64.toNat = packWord word.toNat ps
  | [], word, _, _, _, _ => ⟨.ok word, rfl, rfl⟩
  | (f, v) :: ps, word, n, hbits, hword, hroom => by
    obtain ⟨h63, hps⟩ := List.forall_mem_cons.1 hbits
    simp only [List.map_cons, totalBits] at hroom
    have hf : f.bits < 64 := Nat.lt_succ_of_le h63
    have hplaces : places? f.bits = some (UInt64.ofNat f.bits) := if_pos hf
    have hcheck : 1 <<< UInt64.ofNat f.bits ≤ v.toUInt64 ↔ 1 <<< f.bits ≤ v.toNat := by
      rw [UInt64.le_iff_toNat_le, toNat_one_shiftLeft hf, UInt32.toNat_toUInt64]
    by_cases hv : 1 <<< f.bits ≤ v.toNat
    · refine ⟨.error (.fieldOverflow f.name v f.bits), ?_, ?_⟩
      · simp only [packWord64?, hplaces, hcheck, hv, if_true, bind, Option.bind]
        rfl
      · rw [packWord, if_pos hv]
        rfl
    · have hpush := push_lt hword (Nat.lt_of_not_le hv)
      have hnext : ((word <<< UInt64.ofNat f.bits) ||| v.toUInt64).toNat
          = (word.toNat <<< f.bits) ||| v.toNat := by
        have hshift : word.toNat <<< f.bits < 1 <<< 64 := by
          refine Nat.lt_of_lt_of_le (shiftLeft_lt hword f.bits) ?_
          rw [Nat.one_shiftLeft, Nat.one_shiftLeft]
          exact Nat.pow_le_pow_right (by decide) (by omega)
        rw [UInt64.toNat_or, UInt64.toNat_shiftLeft, toNat_places hf, UInt32.toNat_toUInt64]
        exact congrArg (· ||| v.toNat) (Nat.mod_eq_of_lt hshift)
      rw [← hnext] at hpush
      obtain ⟨run, hrun, hresult⟩ := packWord64?_eq hps hpush (by omega)
      refine ⟨run, ?_, ?_⟩
      · simp only [packWord64?, hplaces, hcheck, hv, if_false, bind, Option.bind]
        exact hrun
      · rw [packWord, if_neg hv, ← hnext]
        exact hresult

theorem take_littleEndian : ∀ {k n : Nat} (v : Nat), k ≤ n →
    (littleEndian n v).take k = littleEndian k v
  | 0, _, _, _ => rfl
  | k + 1, n + 1, v, h => by
    rw [littleEndian, List.take_succ_cons, take_littleEndian _ (Nat.le_of_succ_le_succ h),
      littleEndian]

theorem drop_bigEndian {k n : Nat} (v : Nat) (h : k ≤ n) :
    (bigEndian n v).drop (n - k) = bigEndian k v := by
  have hlen : (littleEndian n v).length = n := length_littleEndian n v
  rw [bigEndian, bigEndian, ← take_littleEndian v h, List.reverse_take, hlen]

namespace Record

/-! ## Values that fit -/

/-- The value is of the kind of the shape, and the shape has room for it. -/
inductive Fits : Shape → Record → Prop
  | u8 (v : UInt8) : Fits .u8 (.u8 v)
  | u16 (v : UInt16) : Fits .u16 (.u16 v)
  | u32 (v : UInt32) : Fits .u32 (.u32 v)
  | i32 (v : Int32) : Fits .i32 (.i32 v)
  | text {s : String} (ascii : ∀ c ∈ s.toList, c.toNat < 128) : Fits (.ascii .remainder) (.text s)
  | paddedText {s : String} {n : Nat} (ascii : ∀ c ∈ s.toList, c.toNat < 128) (le : s.length ≤ n) :
    Fits (.ascii (.fixed n)) (.text s)
  | bits {layout : List BitField} {fields : List (String × UInt32)}
    (names : layout.map BitField.name = fields.map Prod.fst)
    (small : ∀ p ∈ layout.zip fields, p.2.2.toNat < 1 <<< p.1.bits) :
    Fits (.bits layout) (.bits fields)
  | u16s (vs : List UInt16) : Fits (.u16s vs.length) (.u16s vs)
  | rest (bs : Bytes) : Fits (.block .remainder) (.block bs)
  | block (bs : Bytes) : Fits (.block (.fixed bs.length)) (.block bs)
  | clock (t : ClockReading) : Fits .clock (.clock t)
  | payment (p : Payment) : Fits .payment (.payment p)
  | empty : Fits .empty .empty

theorem fits_bits_iff {layout : List BitField} {fields : List (String × UInt32)} :
    Fits (.bits layout) (.bits fields) ↔ layout.map BitField.name = fields.map Prod.fst
      ∧ ∀ p ∈ layout.zip fields, p.2.2.toNat < 1 <<< p.1.bits := by
  constructor
  · rintro ⟨⟩
    exact ⟨‹_›, ‹_›⟩
  · rintro ⟨hnames, hsmall⟩
    exact .bits hnames hsmall

/-- The bytes of a value that takes as many as it has, not as many as its shape says. -/
def ownLength : Record → Nat
  | .text s => s.length
  | .block bs => bs.length
  | _ => 0

theorem fit_fields_iff {layout : List BitField} {fields : List (String × UInt32)}
    (h : layout.map BitField.name = fields.map Prod.fst) :
    Fit layout (fields.map Prod.snd) ↔ ∀ p ∈ layout.zip fields, p.2.2.toNat < 1 <<< p.1.bits := by
  have hlen : layout.length = fields.length := by simpa using congrArg List.length h
  rw [fit_iff, List.length_map, List.zip_map_right, List.forall_mem_map]
  simp only [hlen, true_and, Prod.map_fst, Prod.map_snd, id]

theorem fits_iff {shape : Shape} {r : Record} : Fits shape r ↔ ∃ bs, WrittenAs shape r bs := by
  constructor
  · intro h
    cases h with
    | text hascii => exact ⟨_, .text (isAscii_iff.2 hascii)⟩
    | paddedText hascii hle => exact ⟨_, .paddedText (isAscii_iff.2 hascii) hle⟩
    | bits hnames hsmall => exact ⟨_, .bits hnames ((fit_fields_iff hnames).2 hsmall)⟩
    | _ => exact ⟨_, by constructor⟩
  · rintro ⟨bs, h⟩
    cases h with
    | text hascii => exact .text (isAscii_iff.1 hascii)
    | paddedText hascii hle => exact .paddedText (isAscii_iff.1 hascii) hle
    | bits hnames hfit => exact .bits hnames ((fit_fields_iff hnames).1 hfit)
    | _ => constructor

theorem WrittenAs.length_own {shape : Shape} {r : Record} {bs : Bytes} (h : WrittenAs shape r bs)
    (hw : shape.width? = none) : bs.length = r.ownLength := by
  cases h with
  | text => exact length_asciiBytes _
  | rest => rfl
  | _ => cases hw

theorem appendTo_of_written {shape : Shape} {r : Record} {bs : Bytes} (h : WrittenAs shape r bs)
    (out : Bytes) : r.appendTo shape out = (.ok (), out ++ bs) := by
  rw [appendTo_eq, write_eq_ok_iff.2 h]

theorem exists_misfit {shape : Shape} {r : Record} (h : ¬ Fits shape r) :
    ∃ misfit, ∀ out, r.appendTo shape out = (.error (.mismatch shape misfit), out) := by
  rcases hwrite : r.write shape with misfit | bs
  · refine ⟨misfit, fun out => ?_⟩
    rw [appendTo_eq, hwrite]
  · exact absurd (fits_iff.2 ⟨bs, write_eq_ok_iff.1 hwrite⟩) h

/-- On 64 bits a packed record is written as it is on all numbers. -/
theorem appendTo_bits {layout : List BitField} (hs : (Shape.bits layout).Packable)
    {fields : List (String × UInt32)} (hnames : layout.map BitField.name = fields.map Prod.fst) :
    ∃ run, packWord64? 0 (layout.zip (fields.map Prod.snd)) = some run
      ∧ ∀ out, (Record.bits fields).appendTo (.bits layout) out = match run with
        | .ok word => (.ok (), out ++ (bigEndian 8 word.toNat).drop (8 - totalBits layout / 8))
        | .error misfit => (.error (.mismatch (.bits layout) misfit), out) := by
  have hlen : layout.length = fields.length := by simpa using congrArg List.length hnames
  have hzip : (layout.zip (fields.map Prod.snd)).map Prod.fst = layout :=
    List.map_fst_zip (by simp [hlen])
  obtain ⟨h63, hroom⟩ := hs
  have hbits : ∀ p ∈ layout.zip (fields.map Prod.snd), p.1.bits ≤ 63 :=
    fun p hp => h63 _ (List.of_mem_zip hp).1
  have hfields : 0 + totalBits ((layout.zip (fields.map Prod.snd)).map Prod.fst) ≤ 64 := by
    rwa [hzip, Nat.zero_add]
  obtain ⟨run, hrun, hresult⟩ := @packWord64?_eq _ 0 0 hbits (by decide) hfields
  refine ⟨run, hrun, fun out => ?_⟩
  have hemit : emitFields layout fields = liftM (packWord 0 (layout.zip (fields.map Prod.snd)))
      >>= fun word => Writer.emit (bigEndian (totalBits layout / 8) word) := by
    rw [emitFields, if_neg (not_not_intro hnames)]
  have hemitted : (Record.bits fields).emit (.bits layout) = emitFields layout fields := rfl
  have hlow : ∀ v, (bigEndian 8 v).drop (8 - totalBits layout / 8)
      = bigEndian (totalBits layout / 8) v := fun v => drop_bigEndian v (by omega)
  rw [appendTo, hemitted, hemit, ← UInt64.toNat_zero, ← hresult]
  simp only [hlow]
  rcases run with misfit | word
  · rfl
  · rfl

/-- A value that fits its shape adds bytes to a buffer that do not depend on what is there, and a
value that does not fit adds none. -/
theorem appendTo_whole_or_nothing {shape : Shape} (hs : shape.Packable) (r : Record) :
    (Fits shape r → ∃ bs, (∀ out, r.appendTo shape out = (.ok (), out ++ bs))
      ∧ (∀ w, shape.size? = some w → bs.length = w)
      ∧ (∀ w, shape.width? = some w → bs.length < 1 <<< 64 → bs.length = w)
      ∧ (shape.width? = none → bs.length = r.ownLength))
    ∧ (¬ Fits shape r →
      ∃ misfit, ∀ out, r.appendTo shape out = (.error (.mismatch shape misfit), out))
    ∧ ∀ layout fields, shape = .bits layout → r = .bits fields →
      layout.map BitField.name = fields.map Prod.fst →
      ∃ run, packWord64? 0 (layout.zip (fields.map Prod.snd)) = some run
        ∧ ∀ out, r.appendTo shape out = match run with
          | .ok word => (.ok (), out ++ (bigEndian 8 word.toNat).drop (8 - totalBits layout / 8))
          | .error misfit => (.error (.mismatch shape misfit), out) := by
  refine ⟨fun hfits => ?_, exists_misfit, ?_⟩
  · obtain ⟨bs, hwritten⟩ := fits_iff.1 hfits
    exact ⟨bs, appendTo_of_written hwritten, fun _ => hwritten.length_eq,
      fun w hw hbuf => hwritten.length_width (hwritten.not_overflows hbuf) hw,
      hwritten.length_own⟩
  · rintro layout fields rfl rfl hnames
    exact appendTo_bits hs hnames

/-- Two fields of 63 bits and of one bit behind two bytes of something else: the values fit, or the
second is too large and is found to be so when the first has been packed. -/
theorem appendTo_whole_or_nothing_wide :
    let shape : Shape := .bits [⟨"wide", 63⟩, ⟨"flag", 1⟩]
    let r (flag : UInt32) : Record := .bits [("wide", 0xdeadbeef), ("flag", flag)]
    (shape.Packable ∧ Fits shape (r 1) ∧ ¬ Fits shape (r 2))
      ∧ (∃ bs, (r 1).appendTo shape [0x7e, 0x11] = (.ok (), [0x7e, 0x11] ++ bs) ∧ bs.length = 8)
      ∧ ∃ misfit,
        (r 2).appendTo shape [0x7e, 0x11] = (.error (.mismatch shape misfit), [0x7e, 0x11]) := by
  intro shape r
  have hs : shape.Packable := ⟨by decide, by decide⟩
  have hfits : Fits shape (r 1) := fits_bits_iff.2 (by decide)
  have hnot : ¬ Fits shape (r 2) := mt fits_bits_iff.1 (by decide)
  obtain ⟨hwhole, -⟩ := appendTo_whole_or_nothing hs (r 1)
  obtain ⟨-, hnothing, -⟩ := appendTo_whole_or_nothing hs (r 2)
  obtain ⟨bs, hbs, hsize, -⟩ := hwhole hfits
  obtain ⟨misfit, hmisfit⟩ := hnothing hnot
  exact ⟨⟨hs, hfits, hnot⟩, ⟨bs, hbs _, hsize 8 rfl⟩, misfit, hmisfit _⟩

end Record

end MeterLink

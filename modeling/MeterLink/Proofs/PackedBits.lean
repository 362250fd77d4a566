import MeterLink.Proofs.CheckRegister
import MeterLink.Proofs.RecordOutcome

/-!
# Packed fields as parts of a row of bits

The number that bytes make, most significant first, is that of their bits (`ofBits_bits`), and a
shift followed by a mask cuts a part out of the row (`ofBits_slice`). The field of a packed record
is the part of the row that begins where the fields before it end (`readFields_slice`).

A list of values gets the names of a layout exactly if each of them has room in its field
(`nameFields_eq_ok_iff`), which is also when it can be written and what is known of any fields that
were read.
-/

namespace MeterLink

/-- The number of a row of bits, the most significant first. -/
def ofBits (l : List Bool) : Nat := l.foldl (fun n b => 2 * n + b.toNat) 0

theorem ofBits_concat (l : List Bool) (b : Bool) : ofBits (l ++ [b]) = 2 * ofBits l + b.toNat := by
  rw [ofBits, List.foldl_append, List.foldl_cons, List.foldl_nil, ← ofBits]

theorem ofBits_append (l m : List Bool) : ofBits (l ++ m) = (ofBits l <<< m.length) + ofBits m := by
  induction m using List.reverseRecOn with
  | nil => simp [ofBits]
  | append_singleton m b ih =>
    rw [← List.append_assoc, ofBits_concat, ofBits_concat, ih, List.length_append,
      List.length_singleton, Nat.shiftLeft_add, Nat.shiftLeft_eq _ 1]
    omega

theorem ofBits_lt (l : List Bool) : ofBits l < 1 <<< l.length := by
  induction l using List.reverseRecOn with
  | nil => decide
  | append_singleton l b ih =>
    have hb := Bool.toNat_le b
    rw [ofBits_concat, List.length_append, List.length_singleton, Nat.shiftLeft_add,
      Nat.shiftLeft_eq _ 1]
    omega

/-- The middle of a row is what a shift and a mask leave of its number. -/
theorem ofBits_middle (front mid back : List Bool) :
    (ofBits (front ++ mid ++ back) >>> back.length) % 1 <<< mid.length = ofBits mid := by
  rw [ofBits_append, push_shiftRight (ofBits_lt back), ofBits_append, push_mod (ofBits_lt mid)]

theorem ofBits_slice {l : List Bool} {i b : Nat} (h : i + b ≤ l.length) :
    ofBits ((l.drop i).take b) = (ofBits l >>> (l.length - i - b)) % 1 <<< b := by
  have hparts : l.take i ++ (l.drop i).take b ++ l.drop (i + b) = l := by
    rw [← List.drop_drop, List.append_assoc, List.take_append_drop, List.take_append_drop]
  have hmid : ((l.drop i).take b).length = b := by
    rw [List.length_take, List.length_drop]
    omega
  have hback : (l.drop (i + b)).length = l.length - i - b := by
    rw [List.length_drop, Nat.sub_sub]
  have hcut := ofBits_middle (l.take i) ((l.drop i).take b) (l.drop (i + b))
  rw [hparts, hmid, hback] at hcut
  exact hcut.symm

theorem ofBits_bitsOf (b : UInt8) : ofBits (bitsOf b) = b.toNat := by
  have h : ∀ n < 256, ofBits (bitsOf (UInt8.ofNat n)) = n := by decide +kernel
  simpa using h b.toNat b.toNat_lt

theorem ofBits_bits (bs : Bytes) : ofBits (bits bs) = ofBigEndian bs := by
  induction bs using List.reverseRecOn with
  | nil => rfl
  | append_singleton bs b ih =>
    have hb : bits [b] = bitsOf b := List.append_nil _
    rw [bits_append, hb, ofBits_append, length_bitsOf, ofBits_bitsOf, ih,
      ofBigEndian_append_singleton]

theorem bits_take (bs : Bytes) (n : Nat) : bits (bs.take n) = (bits bs).take (8 * n) := by
  rcases Nat.le_total n bs.length with h | h
  · have hlen : (bits (bs.take n)).length = 8 * n := by
      rw [length_bits, List.length_take_of_le h]
    conv_rhs => rw [← List.take_append_drop n bs, bits_append, List.take_left' hlen]
  · rw [List.take_of_length_le h, List.take_of_length_le]
    rw [length_bits]
    omega

/-! ## Fields that are read -/

theorem totalBits_take_add_le : ∀ {layout : List BitField} {i : Nat} {f : BitField},
    layout[i]? = some f → totalBits (layout.take i) + f.bits ≤ totalBits layout
  | g :: fs, 0, f, h => by
    cases h
    rw [List.take_zero, totalBits, totalBits, Nat.zero_add]
    exact Nat.le_add_right ..
  | g :: fs, i + 1, f, h => by
    have ih := totalBits_take_add_le (List.getElem?_cons_succ ▸ h)
    rw [List.take_succ_cons, totalBits, totalBits]
    omega

/-- A field is found below the fields before it. -/
theorem getElem?_readFields (word : Nat) : ∀ (remaining : Nat) {layout : List BitField} {i : Nat}
    {f : BitField}, layout[i]? = some f → (readFields word remaining layout)[i]?
      = some (f.name, UInt32.ofNat
        ((word >>> (remaining - totalBits (layout.take i) - f.bits)) % 1 <<< f.bits))
  | _, g :: fs, 0, f, h => by
    cases h
    rfl
  | remaining, g :: fs, i + 1, f, h => by
    have ih := getElem?_readFields word (remaining - g.bits) (List.getElem?_cons_succ ▸ h)
    rw [readFields, List.getElem?_cons_succ, ih, List.take_succ_cons, totalBits, Nat.sub_sub remaining]

theorem readFields_slice {layout : List BitField} (h : ∀ f ∈ layout, f.bits ≤ 32) {bs : Bytes}
    (hbs : 8 * bs.length = totalBits layout) {i : Nat} {f : BitField} (hf : layout[i]? = some f) :
    ∃ v, (readFields (ofBigEndian bs) (totalBits layout) layout)[i]? = some (f.name, v)
      ∧ v.toNat = ofBits (((bits bs).drop (totalBits (layout.take i))).take f.bits) := by
  refine ⟨_, getElem?_readFields _ _ hf, ?_⟩
  have hroom : totalBits (layout.take i) + f.bits ≤ (bits bs).length := by
    rw [length_bits, hbs]
    exact totalBits_take_add_le hf
  rw [toNat_field (h f (List.mem_of_getElem? hf)), ofBits_slice hroom, ofBits_bits, length_bits, hbs]

/-! ## Values that are given names -/

theorem nameFields_eq_ok_iff {layout : List BitField} {values : List UInt32}
    {fields : List (String × UInt32)} : nameFields layout values = .ok fields
      ↔ Fit layout values ∧ fields = (layout.map BitField.name).zip values := by
  unfold nameFields
  split_ifs with hlen
  · simp only [false_iff, not_and]
    exact fun hfit => absurd hfit.length_eq hlen
  · rw [not_not] at hlen
    rw [← overflow?_eq_none_iff hlen]
    rcases overflow? layout values with _ | ⟨f, v⟩
    · simp [eq_comm]
    · simp

/-- The names and the values of fields that have the names of a layout. -/
theorem zip_names {layout : List BitField} {fields : List (String × UInt32)}
    (h : layout.map BitField.name = fields.map Prod.fst) :
    (layout.map BitField.name).zip (fields.map Prod.snd) = fields := by
  rw [h, List.zip_map', List.map_id'' fun _ => rfl]

section Layout

open Record (decode encode WrittenAs)

variable {layout : List BitField}

theorem decode_bits_slice (hs : (Shape.bits layout).IsRegular) {buf : Bytes}
    (hbuf : totalBits layout / 8 ≤ buf.length) : ∃ fields,
    decode (.bits layout) buf = .ok (.bits fields)
      ∧ readFields64? (readWord (buf.take (totalBits layout / 8))) (totalBits layout) layout
        = some fields
      ∧ fields.length = layout.length
      ∧ ∀ i f, layout[i]? = some f → ∃ v, fields[i]? = some (f.name, v)
        ∧ v.toNat = ofBits (((bits buf).drop (totalBits (layout.take i))).take f.bits) := by
  obtain ⟨hfields, hwhole, hsize⟩ := hs
  have hlen : 8 * (buf.take (totalBits layout / 8)).length = totalBits layout := by
    rw [List.length_take_of_le hbuf, Nat.mul_div_cancel' hwhole]
  have hword := readFields64?_readWord hfields hsize (List.length_take_of_le hbuf)
  refine ⟨_, ?_, hword, ?_, fun i f hf => ?_⟩
  · rw [decode, takeExact_eq_ok_iff.2 ⟨hbuf, rfl⟩]
    rfl
  · simpa using congrArg List.length (readFields_names _ (totalBits layout) layout)
  · obtain ⟨v, hget, hv⟩ := readFields_slice (fun f hf => (hfields f hf).2) hlen hf
    refine ⟨v, hget, hv.trans ?_⟩
    -- The field ends before the bytes that are left over.
    have hroom := totalBits_take_add_le hf
    rw [bits_take, Nat.mul_div_cancel' hwhole, List.drop_take, List.take_take,
      Nat.min_eq_left (by omega)]

theorem decode_nameFields (hs : (Shape.bits layout).IsRegular) {values : List UInt32}
    {fields : List (String × UInt32)} (h : nameFields layout values = .ok fields) :
    ∃ bs, encode (.bits layout) (.bits fields) = .ok bs
      ∧ decode (.bits layout) bs = .ok (.bits fields) := by
  obtain ⟨hfit, rfl⟩ := nameFields_eq_ok_iff.1 h
  have hlen : (layout.map BitField.name).length = values.length := by
    rw [List.length_map, hfit.length_eq]
  have hnames := List.map_fst_zip (Nat.le_of_eq hlen)
  have hvalues := List.map_snd_zip (Nat.le_of_eq hlen.symm)
  have hwritten := WrittenAs.bits hnames.symm (hvalues.symm ▸ hfit)
  exact ⟨_, Record.encode_eq_ok_iff.2 hwritten, hwritten.decode_eq hs id trivial⟩

theorem nameFields_decode (hs : (Shape.bits layout).IsRegular) {buf : Bytes}
    {fields : List (String × UInt32)} (h : decode (.bits layout) buf = .ok (.bits fields)) :
    nameFields layout (fields.map Prod.snd) = .ok fields := by
  obtain ⟨bs, hwritten⟩ := Record.writtenAs_of_decode_eq_ok hs.fitsWord id h
  cases hwritten with
  | bits hnames hfit => exact nameFields_eq_ok_iff.2 ⟨hfit, (zip_names hnames).symm⟩

/-- The fields that are read are the parts of the row of bits that follow each other, as long as
their layout says. A list of values is given the names of a layout exactly if there is one value
for each field and each has room in its field. Fields that got their names so can be written and
are read back as they were, and those that were read could have got their names so. -/
theorem packed_fields_agree (hs : (Shape.bits layout).IsRegular) :
    (∀ buf, totalBits layout / 8 ≤ buf.length → ∃ fields,
      decode (.bits layout) buf = .ok (.bits fields)
        ∧ readFields64? (readWord (buf.take (totalBits layout / 8))) (totalBits layout) layout
          = some fields
        ∧ fields.length = layout.length
        ∧ ∀ i f, layout[i]? = some f → ∃ v, fields[i]? = some (f.name, v)
          ∧ v.toNat = ofBits (((bits buf).drop (totalBits (layout.take i))).take f.bits))
    ∧ (∀ values, (∃ fields, nameFields layout values = .ok fields)
      ↔ layout.length = values.length ∧ ∀ p ∈ layout.zip values, p.2.toNat < 1 <<< p.1.bits)
    ∧ (∀ values fields, nameFields layout values = .ok fields →
      fields = (layout.map BitField.name).zip values
        ∧ ∃ bs, encode (.bits layout) (.bits fields) = .ok bs
          ∧ decode (.bits layout) bs = .ok (.bits fields))
    ∧ ∀ buf fields, decode (.bits layout) buf = .ok (.bits fields) →
      nameFields layout (fields.map Prod.snd) = .ok fields := by
  refine ⟨fun buf => decode_bits_slice hs, fun values => ?_, fun values fields h => ?_,
    fun buf fields => nameFields_decode hs⟩
  · rw [← fit_iff]
    refine ⟨fun ⟨fields, h⟩ => (nameFields_eq_ok_iff.1 h).1, fun hfit => ?_⟩
    exact ⟨_, nameFields_eq_ok_iff.2 ⟨hfit, rfl⟩⟩
  · exact ⟨(nameFields_eq_ok_iff.1 h).2, decode_nameFields hs h⟩

/-- Fields of 5, 6 and 13 bits in three bytes, two of which lie across the end of a byte. -/
theorem packed_fields_agree_across_bytes :
    let layout : List BitField := [⟨"low", 5⟩, ⟨"middle", 6⟩, ⟨"high", 13⟩]
    let values : List UInt32 := [0b10110, 0b011101, 0b0010111100001]
    (Shape.bits layout).IsRegular
    ∧ (∃ fields, decode (.bits layout) [0xb3, 0xa5, 0xe1, 0xff] = .ok (.bits fields)
      ∧ fields[1]? = some ("middle", 0b011101))
    ∧ ∃ fields, nameFields layout values = .ok fields
      ∧ ∃ bs, encode (.bits layout) (.bits fields) = .ok bs
        ∧ decode (.bits layout) bs = .ok (.bits fields)
        ∧ nameFields layout (fields.map Prod.snd) = .ok fields := by
  intro layout values
  have hs : (Shape.bits layout).IsRegular := ⟨by decide, by decide, by decide⟩
  obtain ⟨hread, hnamed, hwritten, hback⟩ := packed_fields_agree hs
  obtain ⟨fields, hfields, -, -, hslices⟩ := hread [0xb3, 0xa5, 0xe1, 0xff] (by decide)
  obtain ⟨v, hget, hv⟩ := hslices 1 ⟨"middle", 6⟩ rfl
  have hvalue : v = 0b011101 := UInt32.toNat_inj.1 (hv.trans (by decide +kernel))
  obtain ⟨named, hnamed⟩ := (hnamed values).2 (by decide)
  obtain ⟨-, bs, hbs, hdecode⟩ := hwritten values named hnamed
  exact ⟨hs, ⟨fields, hfields, hvalue ▸ hget⟩, named, hnamed, bs, hbs, hdecode, hback _ _ hdecode⟩

end Layout

end MeterLink

import Mathlib.Data.Option.Basic
import MeterLink.Proofs.RecordRoundTrip

/-!
# What becomes of a payload

A payload that is shorter than its shape is truncated, whatever it holds. Of one that is long
enough the shape reads its width, or all of it (`Shape.consumed`). Only a text can be spoilt there,
by its first byte that is not ASCII; what is read otherwise is the value that has these bytes in
the shape (`Carries`).

Packed fields are read from a word of 64 bits with shifts and masks. No shift is by 64 places and
no count of bits falls below zero, so that they are the fields of the number that the bytes make
(`readFields64?_readWord`). The size of an array may be too large for a word; checks on arithmetic
find only that (`Record.decode64?_eq`).
-/

namespace MeterLink

/-- The bytes of a payload that are read. -/
def Shape.consumed (shape : Shape) (buf : Bytes) : Bytes :=
  shape.width?.elim buf buf.take

/-- The kind of the values of a shape, in words. -/
def Shape.kind : Shape → String
  | .u8 => "u8"
  | .u16 => "u16"
  | .u32 => "u32"
  | .i32 => "i32"
  | .ascii _ => "text"
  | .bits _ => "bits"
  | .u16s _ => "u16 array"
  | .block _ => "block"
  | .clock => "time"
  | .payment => "transaction details"
  | .empty => "empty"

/-! ## Words of 64 bits -/

/-- The word of the bytes, most significant first; what is shifted out at its top is lost. -/
def readWord (bs : Bytes) : UInt64 :=
  bs.foldl (fun word b => (word <<< 8) ||| b.toUInt64) 0

/-- The places of a shift, of which a word has less than 64. -/
def places? (n : Nat) : Option UInt64 :=
  if n < 64 then some (UInt64.ofNat n) else none

/-- The fields of a packed record as they are read from a word, unless a shift has too many places
or fewer bits remain than the next field takes. -/
def readFields64? (word : UInt64) : Nat → List BitField → Option (List (String × UInt32))
  | _, [] => some []
  | remaining, f :: fs => do
    guard (f.bits ≤ remaining)
    let rest := remaining - f.bits
    let width ← places? f.bits
    let below ← places? rest
    let values ← readFields64? word rest fs
    return (f.name, ((word >>> below) &&& ((1 <<< width) - 1)).toUInt32) :: values

theorem ofBigEndian_append_singleton (bs : Bytes) (b : UInt8) :
    ofBigEndian (bs ++ [b]) = ofBigEndian bs <<< 8 + b.toNat := by
  rw [ofBigEndian, List.reverse_append, List.reverse_singleton, List.singleton_append,
    ofLittleEndian, ← ofBigEndian, Nat.shiftLeft_eq, Nat.add_comm, Nat.mul_comm]

theorem toNat_readWord {bs : Bytes} (h : bs.length ≤ 8) : (readWord bs).toNat = ofBigEndian bs := by
  induction bs using List.reverseRecOn with
  | nil => rfl
  | append_singleton bs b ih =>
    rw [List.length_append, List.length_singleton] at h
    have hlt : ofBigEndian bs < 1 <<< 56 := by
      refine Nat.lt_of_lt_of_le (ofBigEndian_lt bs) ?_
      rw [Nat.one_shiftLeft, Nat.one_shiftLeft]
      exact Nat.pow_le_pow_right (by decide) (by omega)
    have hshift : ofBigEndian bs <<< 8 < 1 <<< 64 := by
      rw [Nat.shiftLeft_eq]
      omega
    rw [readWord, List.foldl_append, List.foldl_cons, List.foldl_nil, ← readWord, UInt64.toNat_or,
      UInt64.toNat_shiftLeft, ih (by omega), UInt8.toNat_toUInt64,
      ofBigEndian_append_singleton, Nat.shiftLeft_add_eq_or_of_lt b.toNat_lt]
    exact congrArg (· ||| b.toNat) (Nat.mod_eq_of_lt hshift)

theorem toNat_places {n : Nat} (h : n < 64) : (UInt64.ofNat n).toNat % 64 = n := by
  rw [UInt64.toNat_ofNat_of_lt' (Nat.lt_trans h (by decide)), Nat.mod_eq_of_lt h]

theorem toNat_one_shiftLeft {n : Nat} (h : n < 64) :
    (1 <<< UInt64.ofNat n : UInt64).toNat = 1 <<< n := by
  rw [UInt64.toNat_shiftLeft, toNat_places h]
  refine Nat.mod_eq_of_lt ?_
  rw [UInt64.toNat_one, Nat.one_shiftLeft]
  exact Nat.pow_lt_pow_right (by decide) h

/-- A field of a word is cut out by a shift and a mask. -/
theorem toNat_field64 (word : UInt64) {width below : Nat} (hw : width < 64) (hb : below < 64) :
    ((word >>> UInt64.ofNat below) &&& ((1 <<< UInt64.ofNat width) - 1)).toNat
      = (word.toNat >>> below) % 1 <<< width := by
  have hle : (1 : UInt64) ≤ 1 <<< UInt64.ofNat width := by
    rw [UInt64.le_iff_toNat_le, toNat_one_shiftLeft hw, Nat.one_shiftLeft]
    exact Nat.two_pow_pos width
  rw [UInt64.toNat_and, UInt64.toNat_shiftRight, toNat_places hb, UInt64.toNat_sub_of_le _ _ hle,
    toNat_one_shiftLeft hw, Nat.one_shiftLeft]
  exact Nat.and_two_pow_sub_one_eq_mod _ width

theorem readFields64?_eq (word : UInt64) : ∀ {layout : List BitField},
    (∀ f ∈ layout, 1 ≤ f.bits ∧ f.bits ≤ 32) → totalBits layout ≤ 64 →
    readFields64? word (totalBits layout) layout
      = some (readFields word.toNat (totalBits layout) layout)
  | [], _, _ => rfl
  | f :: fs, h, hsize => by
    obtain ⟨⟨hpos, h32⟩, hfs⟩ := List.forall_mem_cons.1 h
    have hrest : totalBits (f :: fs) - f.bits = totalBits fs := Nat.add_sub_cancel_left ..
    have hguard : guard (f.bits ≤ totalBits (f :: fs)) = some () := if_pos (Nat.le_add_right ..)
    rw [totalBits] at hsize
    have ih := readFields64?_eq word hfs (by omega)
    have hwidth : places? f.bits = some (UInt64.ofNat f.bits) := if_pos (by omega)
    have hbelow : places? (totalBits fs) = some (UInt64.ofNat (totalBits fs)) := if_pos (by omega)
    have hvalue : ((word >>> UInt64.ofNat (totalBits fs))
        &&& ((1 <<< UInt64.ofNat f.bits) - 1)).toUInt32
        = UInt32.ofNat ((word.toNat >>> totalBits fs) % 1 <<< f.bits) := by
      rw [← UInt32.toNat_inj, UInt64.toNat_toUInt32,
        toNat_field64 word (by omega) (by omega), UInt32.toNat_ofNat']
    rw [readFields64?, hguard]
    simp only [hrest, hwidth, hbelow, ih, readFields, ← hvalue]
    rfl

/-- A field of no bits at the top of a full word asks for a shift by 64 places. -/
example : readFields64? 0 64 [⟨"none", 0⟩, ⟨"high", 32⟩, ⟨"low", 32⟩] = none := by decide

theorem readFields64?_readWord {layout : List BitField}
    (h : ∀ f ∈ layout, 1 ≤ f.bits ∧ f.bits ≤ 32) (hsize : totalBits layout ≤ 64) {bs : Bytes}
    (hbs : bs.length = totalBits layout / 8) :
    readFields64? (readWord bs) (totalBits layout) layout
      = some (readFields (ofBigEndian bs) (totalBits layout) layout) := by
  rw [readFields64?_eq _ h hsize, toNat_readWord (by omega)]

namespace Record

/-! ## Payloads that are too short and payloads that are long enough -/

section Payload

variable {shape : Shape} {buf : Bytes}

theorem decode_short {w : Nat} (hw : shape.width? = some w) (h : buf.length < w) :
    decode shape buf = .error (.truncated w buf.length) := by
  rw [decode_of_width hw, takeExact, if_neg (Nat.not_le.2 h)]
  rfl

theorem decode_consumed (h : ∀ w, shape.width? = some w → w ≤ buf.length) :
    decode shape buf = decode shape (shape.consumed buf) := by
  rw [Shape.consumed]
  rcases hw : shape.width? with _ | w
  · rfl
  · rw [decode_of_width hw, takeExact_eq_ok_iff.2 ⟨h w hw, rfl⟩]
    rfl

theorem length_consumed (h : ∀ w, shape.width? = some w → w ≤ buf.length) {w : Nat}
    (hw : shape.width? = some w) : (shape.consumed buf).length = w := by
  rw [Shape.consumed, hw]
  exact List.length_take_of_le (h w hw)

theorem decode_ascii {extent : Extent} {bs : Bytes}
    (hlen : ∀ w, (Shape.ascii extent).width? = some w → bs.length = w) :
    decode (.ascii extent) bs = (readAscii bs).map .text := by
  cases extent with
  | remainder => rfl
  | fixed n =>
    obtain rfl := hlen n rfl
    rw [decode, takeExact_length]
    rfl

/-- The bytes that are read are those of the value, but for NULs at the end of a text that takes
all that is left. -/
def Carries (shape : Shape) (bs : Bytes) (r : Record) : Prop :=
  ∃ out k, WrittenAs shape r out ∧ out ++ List.replicate k 0 = bs
    ∧ (k = 0 ∨ shape = .ascii .remainder)

theorem carries_of_written {bs : Bytes} {r : Record} (h : WrittenAs shape r bs) :
    Carries shape bs r :=
  ⟨bs, 0, h, List.append_nil bs, .inl rfl⟩

/-- What is read from bytes that are as many as the shape reads is a value with these bytes. -/
theorem carries_of_decode (hs : shape.FitsWord) (hover : ¬ shape.Overflows) {bs : Bytes}
    (hlen : ∀ w, shape.width? = some w → bs.length = w) {r : Record}
    (h : decode shape bs = .ok r) : Carries shape bs r := by
  rcases hw : shape.width? with _ | w
  · cases shape with
    | ascii extent =>
      cases extent with
      | remainder =>
        rw [decode_ascii hlen] at h
        rcases hread : readAscii bs with e | s <;> rw [hread] at h <;> cases h
        exact ⟨_, _, write_eq_ok_iff.1 (writeAscii_remainder hread),
          stripNul_append_padding bs, .inr rfl⟩
      | fixed n => cases hw
    | block extent =>
      cases extent with
      | remainder =>
        cases h
        exact carries_of_written (.rest bs)
      | fixed n => cases hw
    | _ => cases hw
  · obtain rfl := hlen w hw
    exact carries_of_written (writtenAs_of_decode hs hover hw h)

/-- Whatever is read is a value of the shape. -/
theorem writtenAs_of_decode_eq_ok {r : Record} (hs : shape.FitsWord) (hover : ¬ shape.Overflows)
    (h : decode shape buf = .ok r) : ∃ bs, WrittenAs shape r bs := by
  have hlong : ∀ w, shape.width? = some w → w ≤ buf.length := by
    intro w hw
    by_contra hlt
    rw [decode_short hw (Nat.lt_of_not_le hlt)] at h
    cases h
  rw [decode_consumed hlong] at h
  obtain ⟨bs, -, hwritten, -⟩ :=
    carries_of_decode hs hover (fun w hw => length_consumed hlong hw) h
  exact ⟨bs, hwritten⟩

end Payload

end Record

end MeterLink

import Mathlib.Tactic.SplitIfs
import MeterLink.Proofs.FieldRoundTrip
import MeterLink.Wire.Frame

/-!
# Frames are read back as they were written

A frame with a wire form has the length that its data field asks for (`encode_eq_ok_iff`), and its
wire form is `unsealed` followed by the checksum of all but the delimiter (`carried_encode`,
`ofFrame_encode`). A reader finds the end of it by the length alone, whatever bytes follow
(`wholeSize_append`), and gives the frame back with the checksum it was sent with
(`decode_append`, `decodeVerified_append`).
-/

namespace MeterLink

theorem DeviceAddress.bytes_eq (a : DeviceAddress) :
    ∃ d b₀ b₁ b₂, a.bytes = [d, b₀, b₁, b₂] ∧ DeviceAddress.ofBytes d b₀ b₁ b₂ = a := by
  obtain ⟨b₀, b₁, b₂, h, ha⟩ := bigEndian_three a.address
  refine ⟨a.deviceType, b₀, b₁, b₂, ?_, ?_⟩
  · rw [bytes, addressBytes, h]
  · rw [ofBytes, ha]

theorem DeviceAddress.bytes_ofBytes (deviceType b₀ b₁ b₂ : UInt8) :
    (ofBytes deviceType b₀ b₁ b₂).bytes = [deviceType, b₀, b₁, b₂] := by
  rw [bytes, addressBytes, ofBytes, bigEndian_ofBytes_three]

theorem ofBigEndian_word (w : UInt16) : UInt16.ofNat (ofBigEndian (bigEndian 2 w.toNat)) = w := by
  have hw : w.toNat < 1 <<< (8 * 2) := w.toNat_lt
  rw [ofBigEndian_bigEndian, Nat.mod_eq_of_lt hw, UInt16.ofNat_toNat]

namespace Frame

/-- The checksum that a whole frame carries: its last two bytes. -/
def carried (frame : Bytes) : UInt16 := UInt16.ofNat (ofBigEndian (frame.drop (frame.length - 2)))

theorem carried_append (bs : Bytes) (w : UInt16) : carried (bs ++ bigEndian 2 w.toNat) = w := by
  have hlen : (bs ++ bigEndian 2 w.toNat).length - 2 = bs.length := by simp
  rw [carried, hlen, List.drop_left, ofBigEndian_word]

/-! ## What a wire form looks like -/

theorem make_eq_ok_iff {dst src : DeviceAddress} {control : UInt8} {data : DataField} {f : Frame} :
    make dst src control data = .ok f ↔ data.size ≤ 243
      ∧ f = ⟨UInt8.ofNat (overhead + data.size), dst, src, control, data, 0⟩ := by
  unfold make
  split_ifs with h <;> simp only [overhead] at h
  · simp only [Except.ok.injEq, eq_comm (b := f)]
    exact ⟨fun hf => ⟨by omega, hf⟩, And.right⟩
  · simp only [false_iff, not_and]
    omega

theorem make_eq_error {dst src : DeviceAddress} {control : UInt8} {data : DataField}
    (h : 243 < data.size) : make dst src control data
      = .error (.malformed (.tooLong (overhead + data.size))) := by
  rw [make, if_neg (by simp only [overhead]; omega)]

/-- The length byte does not wrap. -/
theorem make_length {dst src : DeviceAddress} {control : UInt8} {data : DataField} {f : Frame}
    (h : make dst src control data = .ok f) : f.length.toNat = overhead + f.data.size := by
  obtain ⟨hsize, rfl⟩ := make_eq_ok_iff.1 h
  simp only [UInt8.toNat_ofNat', overhead]
  exact Nat.mod_eq_of_lt (by omega)

theorem length_unsealed (f : Frame) : f.unsealed.length = headerSize + f.data.size := by
  obtain ⟨_, _, _, _, hd, -⟩ := f.destination.bytes_eq
  obtain ⟨_, _, _, _, hs, -⟩ := f.source.bytes_eq
  simp [unsealed, hd, hs, headerSize]
  omega

theorem encode_eq_ok_iff {f : Frame} {r : Bytes} : f.encode = .ok r ↔
    f.length.toNat = overhead + f.data.size
      ∧ r = f.unsealed ++ bigEndian 2 (Crc.checksum (f.unsealed.drop 1)).toNat := by
  unfold encode
  split_ifs with h
  · simp [h, eq_comm]
  · simp [h]

section Encoded

variable {f : Frame} {r : Bytes}

theorem length_encode (h : f.encode = .ok r) : r.length = f.length.toNat + 1 := by
  obtain ⟨hl, rfl⟩ := encode_eq_ok_iff.1 h
  simp only [List.length_append, length_unsealed, length_bigEndian, hl, headerSize, overhead]
  omega

theorem overhead_lt_length (h : f.encode = .ok r) : overhead + 1 ≤ r.length := by
  rw [length_encode h, (encode_eq_ok_iff.1 h).1]
  omega

theorem encode_eq_cons (h : f.encode = .ok r) : ∃ rest, r = delimiter :: f.length :: rest := by
  obtain ⟨-, rfl⟩ := encode_eq_ok_iff.1 h
  exact ⟨_, rfl⟩

theorem carried_encode (h : f.encode = .ok r) : carried r = Crc.checksum (f.unsealed.drop 1) := by
  obtain ⟨-, rfl⟩ := encode_eq_ok_iff.1 h
  exact carried_append _ _

theorem ofFrame_encode (h : f.encode = .ok r) : Crc.ofFrame r = carried r := by
  rw [carried_encode h]
  obtain ⟨-, rfl⟩ := encode_eq_ok_iff.1 h
  have hlen := length_unsealed f
  rw [headerSize] at hlen
  have hcov : (f.unsealed ++ bigEndian 2 (Crc.checksum (f.unsealed.drop 1)).toNat).length - 3
      = (f.unsealed.drop 1).length := by
    simp only [List.length_append, length_bigEndian, List.length_drop]
    omega
  rw [Crc.ofFrame, Crc.covered, hcov, List.drop_append_of_le_length (by omega), List.take_left]

end Encoded

/-! ## What a reader makes of it -/

theorem wholeSize_eq_ok_iff {buf : Bytes} {n : Nat} : wholeSize buf = .ok n ↔
    ∃ length rest, buf = delimiter :: length :: rest ∧ overhead ≤ length.toNat
      ∧ n = length.toNat + 1 ∧ n ≤ buf.length := by
  constructor
  · intro h
    unfold wholeSize at h
    split at h
    · cases h
    · rename_i first rest
      simp only [] at h
      split_ifs at h with hfirst hlen hover hbuf
      rcases rest with _ | ⟨length, rest⟩
      · simp [headerSize] at hlen
      · simp only [List.headD_cons] at hover hbuf h
        cases h
        exact ⟨length, rest, by rw [not_not.1 hfirst], by omega, rfl, by omega⟩
  · rintro ⟨length, rest, rfl, hover, rfl, hbuf⟩
    have hlen : ¬ (delimiter :: length :: rest).length < headerSize := by
      simp only [overhead, headerSize] at hover ⊢
      omega
    simp only [wholeSize, ne_eq, not_true_eq_false, if_false, hlen, List.headD_cons,
      Nat.not_lt.2 hover, Nat.not_lt.2 hbuf]

theorem verify_eq {frame : Bytes} (h : overhead + 1 ≤ frame.length) : verify frame
    = if carried frame = Crc.ofFrame frame then .ok ()
      else .error (.checksum (Crc.ofFrame frame) (carried frame)) := by
  rw [verify, if_neg (by simp only [overhead] at h; omega)]
  rfl

section Whole

variable {buf : Bytes} {n : Nat}

theorem length_whole (h : wholeSize buf = .ok n) : overhead + 1 ≤ (buf.take n).length := by
  obtain ⟨length, rest, rfl, hover, rfl, hlen⟩ := wholeSize_eq_ok_iff.1 h
  rw [List.length_take_of_le hlen]
  omega

theorem decode_eq (h : wholeSize buf = .ok n) : decode buf = parse (buf.take n) := by
  rw [decode, h]
  rfl

/-- The checksum counts before everything that the frame says. -/
theorem decodeVerified_eq (h : wholeSize buf = .ok n) : decodeVerified buf
    = if carried (buf.take n) = Crc.ofFrame (buf.take n) then decode buf
      else .error (.checksum (Crc.ofFrame (buf.take n)) (carried (buf.take n))) := by
  have hrun : decodeVerified buf = verify (buf.take n) >>= fun _ => parse (buf.take n) := by
    rw [decodeVerified, h]
    rfl
  rw [hrun, verify_eq (length_whole h), ← decode_eq h]
  split_ifs <;> rfl

/-- Without a whole frame both readers find the same fault. -/
theorem decoders_of_error {e : CodecFault} (h : wholeSize buf = .error e) :
    decode buf = .error e ∧ decodeVerified buf = .error e := by
  rw [decode, decodeVerified, h]
  exact ⟨rfl, rfl⟩

theorem decode_of_decodeVerified {f : Frame} (h : decodeVerified buf = .ok f) :
    decode buf = .ok f := by
  rcases hsize : wholeSize buf with e | n
  · rw [(decoders_of_error hsize).2] at h
    cases h
  · rw [decodeVerified_eq hsize] at h
    split_ifs at h
    exact h

end Whole

section Parts

/-- Behind its header a frame is a data field and a checksum of two bytes. -/
theorem parse_append {header : Bytes} (h : header.length = headerSize) :
    ∃ first length dst src control,
      header = first :: length :: (dst.bytes ++ src.bytes ++ [control])
        ∧ ∀ rest, parse (header ++ rest)
          = (DataField.decode (rest.take (rest.length - 2))).map fun data =>
            ⟨length, dst, src, control, data, carried rest⟩ := by
  let [first, length, dt, d₀, d₁, d₂, st, s₀, s₁, s₂, control] := header
  refine ⟨first, length, .ofBytes dt d₀ d₁ d₂, .ofBytes st s₀ s₁ s₂, control, ?_, fun rest => ?_⟩
  · rw [DeviceAddress.bytes_ofBytes, DeviceAddress.bytes_ofBytes]
    rfl
  · simp only [List.cons_append, List.nil_append, parse, carried]
    rcases DataField.decode (rest.take (rest.length - 2)) with e | data
    · rfl
    · rfl

/-- The parts of what was read, in the bytes that it was read from. -/
theorem of_parse {whole : Bytes} {f : Frame} (h : parse whole = .ok f) :
    ∃ first header rest, whole = header ++ rest ∧ header.length = headerSize
      ∧ header = first :: f.length :: (f.destination.bytes ++ f.source.bytes ++ [f.control])
      ∧ DataField.decode (rest.take (rest.length - 2)) = .ok f.data ∧ f.checksum = carried rest := by
  have hlen : headerSize ≤ whole.length := by
    unfold parse at h
    split at h
    · simp [headerSize]
    · cases h
  have hheader : (whole.take headerSize).length = headerSize := List.length_take_of_le hlen
  obtain ⟨first, length, dst, src, control, hfront, hparse⟩ := parse_append hheader
  have hwhole : whole.take headerSize ++ whole.drop headerSize = whole := List.take_append_drop ..
  rw [← hwhole, hparse] at h
  rcases hdata : DataField.decode ((whole.drop headerSize).take _) with e | data
  · rw [hdata] at h
    cases h
  · rw [hdata] at h
    cases h
    exact ⟨first, _, _, hwhole.symm, hheader, hfront, hdata, rfl⟩

end Parts

section Encoded

variable {f : Frame} {r : Bytes}

theorem parse_encode (h : f.encode = .ok r) : parse r = .ok { f with checksum := carried r } := by
  rw [carried_encode h]
  obtain ⟨-, rfl⟩ := encode_eq_ok_iff.1 h
  obtain ⟨_, _, _, _, hd, hdst⟩ := f.destination.bytes_eq
  obtain ⟨_, _, _, _, hs, hsrc⟩ := f.source.bytes_eq
  generalize Crc.checksum (f.unsealed.drop 1) = w
  have hrest : (f.data.encode ++ bigEndian 2 w.toNat).length - 2 = f.data.encode.length := by simp
  simp only [unsealed, hd, hs, List.cons_append, List.nil_append, parse, hrest, List.take_left,
    List.drop_left, DataField.decode_encode, ofBigEndian_word, hdst, hsrc]
  rfl

theorem wholeSize_append (h : f.encode = .ok r) (t : Bytes) : wholeSize (r ++ t) = .ok r.length := by
  have hlen := length_encode h
  have hover := overhead_lt_length h
  obtain ⟨rest, rfl⟩ := encode_eq_cons h
  refine wholeSize_eq_ok_iff.2 ⟨f.length, rest ++ t, rfl, by omega, hlen, ?_⟩
  simp only [List.length_append]
  omega

theorem decode_append (h : f.encode = .ok r) (t : Bytes) :
    decode (r ++ t) = .ok { f with checksum := carried r } := by
  rw [decode_eq (wholeSize_append h t), List.take_left]
  exact parse_encode h

theorem decodeVerified_append (h : f.encode = .ok r) (t : Bytes) :
    decodeVerified (r ++ t) = .ok { f with checksum := carried r } := by
  rw [decodeVerified_eq (wholeSize_append h t), List.take_left, if_pos (ofFrame_encode h).symm]
  exact decode_append h t

end Encoded

/-- A frame can be made around every field of at most 243 bytes and no other. Its wire form is one
byte longer than the length says, so at most 256 bytes, and both readers give the frame back from
it, with the checksum it carries, whatever follows. -/
theorem make_encode_decode (dst src : DeviceAddress) (control : UInt8) (data : DataField) :
    ((∃ f, make dst src control data = .ok f) ↔ data.size ≤ 243)
      ∧ (243 < data.size → ∃ fault, make dst src control data = .error (.malformed fault))
      ∧ ∀ f, make dst src control data = .ok f →
        f.destination = dst ∧ f.source = src ∧ f.control = control ∧ f.data = data
        ∧ ∃ r, f.encode = .ok r ∧ r.length = f.length.toNat + 1 ∧ r.length ≤ 256
          ∧ ∀ t, decodeVerified (r ++ t) = .ok { f with checksum := carried r }
            ∧ decode (r ++ t) = .ok { f with checksum := carried r } := by
  refine ⟨?_, fun h => ⟨_, make_eq_error h⟩, fun f hf => ?_⟩
  · exact ⟨fun ⟨_, hf⟩ => (make_eq_ok_iff.1 hf).1, fun h => ⟨_, make_eq_ok_iff.2 ⟨h, rfl⟩⟩⟩
  · have henc := encode_eq_ok_iff.2 ⟨make_length hf, rfl⟩
    have hlen := length_encode henc
    obtain ⟨-, rfl⟩ := make_eq_ok_iff.1 hf
    refine ⟨rfl, rfl, rfl, rfl, _, henc, hlen, ?_, fun t => ?_⟩
    · rw [hlen]
      exact UInt8.toNat_lt _
    · exact ⟨decodeVerified_append henc t, decode_append henc t⟩

/-- An entry of the second profile log, with its block, followed by two bytes of something else. -/
theorem make_encode_decode_profile :
    let block : ProfileBlock := ⟨List.replicate 80 0x5a, List.length_replicate⟩
    ∃ r, (Frame.mk 97 ⟨1, 2⟩ ⟨3, 4⟩ 0x84 (.profile .second 0x01020304 (some block)) 0).encode = .ok r
      ∧ decodeVerified (r ++ [0x7e, 0x11]) = .ok ⟨97, ⟨1, 2⟩, ⟨3, 4⟩, 0x84,
        .profile .second 0x01020304 (some block), carried r⟩ := by
  intro block
  obtain ⟨-, -, h⟩ := make_encode_decode ⟨1, 2⟩ ⟨3, 4⟩ 0x84 (.profile .second 0x01020304 (some block))
  obtain ⟨-, -, -, -, r, hr, -, -, hread⟩ := h _ (make_eq_ok_iff.2 ⟨by decide, rfl⟩)
  exact ⟨r, hr, (hread _).1⟩

end Frame

end MeterLink

import MeterLink.Proofs.RawFields

/-!
# Frames are written back as they were read

A reader keeps every byte of the header and the data field of the frame it accepts
(`Frame.readFrom_of_decode`), and the declared length is that of the data field. So writing such a
frame gives the same bytes again under the checksum they should have carried
(`Frame.ReadFrom.encode_eq`), which is the one they did carry exactly if the checking reader takes
them too (`Frame.resealed_eq_iff`). The one exception is a profile log with bytes after its block:
they are not kept, and the frame that was read has no wire form.
-/

namespace MeterLink

theorem bigEndian_word {bs : Bytes} (h : bs.length = 2) :
    bigEndian 2 (UInt16.ofNat (ofBigEndian bs)).toNat = bs := by
  have hlt : ofBigEndian bs < 1 <<< (8 * 2) := h ▸ ofBigEndian_lt bs
  have hmod : (UInt16.ofNat (ofBigEndian bs)).toNat = ofBigEndian bs := Nat.mod_eq_of_lt hlt
  rw [hmod, ← h, bigEndian_ofBigEndian]

namespace Frame

/-- The bytes of a whole frame under the checksum that they should carry. -/
def resealed (whole : Bytes) : Bytes :=
  whole.take (whole.length - 2) ++ bigEndian 2 (Crc.ofFrame whole).toNat

section Resealed

variable {whole : Bytes} (h : overhead + 1 ≤ whole.length)

include h

theorem eq_append_carried :
    whole = whole.take (whole.length - 2) ++ bigEndian 2 (carried whole).toNat := by
  rw [carried, bigEndian_word, List.take_append_drop]
  rw [List.length_drop]
  simp only [overhead] at h
  omega

theorem resealed_eq_iff : resealed whole = whole ↔ verify whole = .ok () := by
  have hsame : resealed whole = whole ↔ carried whole = Crc.ofFrame whole := by
    constructor
    · intro hw
      rw [← carried_append (whole.take (whole.length - 2)) (Crc.ofFrame whole), ← resealed, hw]
    · intro hc
      rw [resealed, ← hc, ← eq_append_carried h]
  rw [hsame, verify_eq h]
  split_ifs with hc
  · simp only [hc]
  · simp only [hc]

end Resealed

/-- What reading a frame keeps of its bytes: the header as it is, and of the data field what was
read from it. -/
structure ReadFrom (f : Frame) (whole header field : Bytes) : Prop where
  length_whole : whole.length = f.length.toNat + 1
  length_header : header.length = headerSize
  length_byte : whole[1]? = some f.length
  front : whole.take (whole.length - 2) = header ++ field
  unsealed : f.unsealed = header ++ f.data.encode
  data : DataField.decode field = .ok f.data

section Decoded

variable {buf whole header field : Bytes} {f : Frame}

theorem readFrom_of_parse {length : UInt8} {rest : Bytes}
    (h : parse (delimiter :: length :: rest) = .ok f) (hover : overhead ≤ length.toNat)
    (hlen : (delimiter :: length :: rest).length = length.toNat + 1) :
    ∃ header field, f.ReadFrom (delimiter :: length :: rest) header field := by
  obtain ⟨first, header, rest, hwhole, hheader, hfront, hdata, -⟩ := of_parse h
  have hhead : delimiter = first ∧ length = f.length := by
    rw [hfront] at hwhole
    obtain ⟨hfirst, hrest⟩ := List.cons.inj hwhole
    exact ⟨hfirst, (List.cons.inj hrest).1⟩
  obtain ⟨rfl, rfl⟩ := hhead
  rw [hwhole] at hlen ⊢
  have hend : (header ++ rest).length - 2 = header.length + (rest.length - 2) := by
    simp only [List.length_append, hheader, headerSize, overhead] at hlen hover ⊢
    omega
  refine ⟨header, _, hlen, hheader, ?_, ?_, ?_, hdata⟩
  · rw [← hwhole]
    rfl
  · rw [hend, List.take_length_add_append]
  · rw [Frame.unsealed, hfront]
    simp only [List.cons_append, List.append_assoc, List.nil_append]

theorem decode_eq_ok_iff : decode buf = .ok f ↔
    ∃ size, wholeSize buf = .ok size ∧ parse (buf.take size) = .ok f := by
  rcases h : wholeSize buf with e | size
  · rw [(decoders_of_error h).1]
    simp
  · rw [decode_eq h]
    simp

/-- Of the frames that are read, the checking reader takes those with the right checksum. -/
theorem verified_iff_of_decode {size : Nat} (hsize : wholeSize buf = .ok size)
    (hparse : parse (buf.take size) = .ok f) :
    (∃ f', decodeVerified buf = .ok f') ↔ verify (buf.take size) = .ok () := by
  have hver : decodeVerified buf = verify (buf.take size) >>= fun _ => .ok f := by
    rw [decodeVerified, hsize, ← hparse]
    rfl
  rw [hver]
  rcases verify (buf.take size) with e | _
  · simp [bind, Except.bind]
  · simp [bind, Except.bind]

theorem readFrom_of_decode (h : decode buf = .ok f) : ∃ header field,
    f.ReadFrom (buf.take (f.length.toNat + 1)) header field
      ∧ ((∃ f', decodeVerified buf = .ok f')
        ↔ verify (buf.take (f.length.toNat + 1)) = .ok ()) := by
  obtain ⟨size, hsize, hparse⟩ := decode_eq_ok_iff.1 h
  have hverified := verified_iff_of_decode hsize hparse
  obtain ⟨length, rest, rfl, hover, rfl, hle⟩ := wholeSize_eq_ok_iff.1 hsize
  have hwhole : (delimiter :: length :: rest).take (length.toNat + 1)
      = delimiter :: length :: rest.take (length.toNat - 1) := by
    simp only [overhead] at hover
    rw [show length.toNat + 1 = length.toNat - 1 + 1 + 1 by omega]
    rfl
  have hlen := List.length_take_of_le hle
  rw [hwhole] at hparse hlen
  obtain ⟨header, field, hread⟩ := readFrom_of_parse hparse hover hlen
  obtain rfl : length = f.length := Option.some.inj hread.length_byte
  exact ⟨header, field, hwhole ▸ hread, hverified⟩

section Read

variable (h : f.ReadFrom whole header field)

include h

theorem ReadFrom.length_field : f.length.toNat = overhead + field.length := by
  have hlen := congrArg List.length h.front
  rw [List.length_take, List.length_append, h.length_header, h.length_whole] at hlen
  simp only [overhead, headerSize] at hlen ⊢
  omega

theorem ReadFrom.dataLength_eq : f.dataLength = field.length := by
  rw [dataLength, h.length_field, Nat.add_sub_cancel_left]

/-- A frame that was read is written back if all the bytes of its data field were kept. -/
theorem ReadFrom.encode_eq (hkept : f.data.encode = field) : f.encode = .ok (resealed whole) := by
  have hsize : f.data.size = field.length := by rw [← hkept, DataField.length_encode]
  have hfront := h.front
  rw [← hkept, ← h.unsealed] at hfront
  have hcovered : f.unsealed.drop 1 = Crc.covered whole := by
    rw [← hfront, List.drop_take, Crc.covered, Nat.sub_sub]
  refine encode_eq_ok_iff.2 ⟨by rw [hsize, h.length_field], ?_⟩
  rw [resealed, hfront, hcovered, Crc.ofFrame]

theorem ReadFrom.size_eq : f.data.size
    = if f.data.format = .object then f.dataLength else min 85 f.dataLength := by
  rw [h.dataLength_eq, DataField.size_of_decode h.data]

theorem ReadFrom.kept_iff : f.data.encode = field ↔ f.data.size = f.dataLength := by
  rw [h.dataLength_eq, ← DataField.length_encode]
  refine ⟨congrArg List.length, fun hlen => ?_⟩
  rw [DataField.encode_of_decode h.data, sentPart] at hlen ⊢
  split_ifs at hlen ⊢
  · rfl
  · rw [List.length_take] at hlen
    exact List.take_of_length_le (by omega)

end Read

/-- Writing a frame that was read gives its bytes again under the right checksum, which is the one
they came with exactly if the checking reader takes them; the only frames that cannot be written
are those of a profile log with more bytes than its block. -/
theorem encode_decoded (h : decode buf = .ok f) :
    let total := f.length.toNat + 1
    let again := buf.take (total - 2) ++ bigEndian 2 (Crc.ofFrame (buf.take total)).toNat
    buf[1]? = some f.length
      ∧ (f.data.format = .object ∨ f.dataLength = 5 ∨ f.dataLength = 85 → f.encode = .ok again
        ∧ (again = buf.take total ↔ ∃ f', decodeVerified buf = .ok f'))
      ∧ (¬ (f.data.format = .object ∨ f.dataLength = 5 ∨ f.dataLength = 85) →
        (∃ log, f.data.format = .profile log) ∧ 85 < f.dataLength
          ∧ ∃ fault, f.encode = .error (.malformed fault)) := by
  intro total again
  obtain ⟨header, field, hread, hverified⟩ := readFrom_of_decode h
  have hlen := hread.length_whole
  have hover := hread.length_field
  have hagain : again = resealed (buf.take total) := by
    rw [resealed, hlen, List.take_take, Nat.min_eq_left (Nat.sub_le _ _)]
  have hbyte : buf[1]? = some f.length := by
    rw [← hread.length_byte, List.getElem?_take_of_lt]
    simp only [overhead] at hover
    omega
  have hdata : f.dataLength = f.length.toNat - overhead := rfl
  refine ⟨hbyte, fun hwhole => ?_, fun hcut => ?_⟩
  · have hkept : f.data.size = f.dataLength := by
      rw [hread.size_eq]
      split_ifs with hobject
      · rfl
      · have := hwhole.resolve_left hobject
        omega
    rw [hagain, hread.encode_eq (hread.kept_iff.2 hkept), hverified]
    refine ⟨rfl, resealed_eq_iff ?_⟩
    rw [hlen, hover]
    omega
  · obtain ⟨hobject, hlength⟩ := not_or.1 hcut
    have hsize := hread.size_eq
    rw [if_neg hobject] at hsize
    have hprofile := DataField.size_of_profile hobject
    refine ⟨?_, by omega, .wrongLength f.length.toNat (overhead + f.data.size), ?_⟩
    · rcases hformat : f.data.format with _ | log
      · exact absurd hformat hobject
      · exact ⟨log, rfl⟩
    · rw [encode, if_neg (by omega)]

end Decoded

/-- A firmware version that came with the last bit of its checksum flipped, and more bytes after. -/
theorem encode_decoded_damaged :
    let buf : Bytes := [0x7e, 0x15, 0xc0, 0x6f, 0x00, 0x93, 0x00, 0x00, 0x18, 0xb0, 0x01,
      0x01, 0x00, 0x02, 0x01, 0x00, 0x33, 0x30, 0x32, 0x30, 0x9d, 0xbc, 0x7e, 0x15]
    let f : Frame := ⟨21, ⟨0xc0, 0x6f0093⟩, ⟨0, 0x0018b0⟩, 1,
      .object ⟨0x000201⟩ .read [0x33, 0x30, 0x32, 0x30], 0x9dbc⟩
    decode buf = .ok f ∧ f.encode = .ok (buf.take 20 ++ [0x9d, 0xbd])
      ∧ ¬ ∃ f', decodeVerified buf = .ok f' := by
  intro buf f
  have h : decode buf = .ok f := by rfl
  obtain ⟨-, hobject, -⟩ := encode_decoded h
  obtain ⟨hencode, hverified⟩ := hobject (.inl rfl)
  have hchecksum : bigEndian 2 (Crc.ofFrame (buf.take 22)).toNat = [0x9d, 0xbd] := by decide +kernel
  refine ⟨h, ?_, ?_⟩
  · rw [hencode]
    exact congrArg (fun bs => Except.ok (buf.take 20 ++ bs)) hchecksum
  · rw [← hverified]
    change ¬ buf.take 20 ++ bigEndian 2 (Crc.ofFrame (buf.take 22)).toNat = buf.take 22
    rw [hchecksum]
    decide

end Frame

end MeterLink

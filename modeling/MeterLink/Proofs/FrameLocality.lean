import MeterLink.Proofs.FrameReencoding

/-!
# Readers stay within their frame

Both readers look for the end of a frame in the same way, and neither looks past it
(`wholeSize_extend`), so bytes after a whole frame change neither what is read nor which fault is
found. The checking reader is the other one behind a look at the checksum (`decodeVerified_eq`): on
what is no whole frame the two agree, and a wrong checksum hides all faults of the data field.
-/

namespace MeterLink

namespace Frame

/-- The buffer starts with a whole frame, by the length that the frame declares. -/
def IsWhole (buf : Bytes) : Prop :=
  buf[0]? = some 0x7e ∧ 11 ≤ buf.length
    ∧ ∃ length, buf[1]? = some length ∧ 12 ≤ length.toNat ∧ length.toNat + 1 ≤ buf.length

variable {buf : Bytes} {n : Nat} {f : Frame}

theorem isWhole_iff : IsWhole buf ↔ ∃ n, wholeSize buf = .ok n := by
  constructor
  · rintro ⟨hfirst, -, length, hlength, hover, hlen⟩
    rcases buf with _ | ⟨first, _ | ⟨second, rest⟩⟩
    · cases hfirst
    · cases hlength
    · cases hfirst
      cases hlength
      exact ⟨_, wholeSize_eq_ok_iff.2 ⟨_, rest, rfl, hover, rfl, hlen⟩⟩
  · rintro ⟨n, h⟩
    obtain ⟨length, rest, rfl, hover, rfl, hlen⟩ := wholeSize_eq_ok_iff.1 h
    simp only [overhead] at hover
    exact ⟨rfl, by omega, length, rfl, hover, hlen⟩

/-- Bytes after a whole frame do not belong to it. -/
theorem wholeSize_extend (h : wholeSize buf = .ok n) (ext : Bytes) :
    wholeSize (buf ++ ext) = .ok n ∧ (buf ++ ext).take n = buf.take n := by
  obtain ⟨length, rest, rfl, hover, hn, hlen⟩ := wholeSize_eq_ok_iff.1 h
  refine ⟨wholeSize_eq_ok_iff.2 ⟨length, rest ++ ext, rfl, hover, hn, ?_⟩,
    List.take_append_of_le_length hlen⟩
  rw [List.length_append]
  exact Nat.le_add_right_of_le hlen

/-- The length and the checksum of what is read from a whole frame are its second byte and its last
two. -/
theorem ends_of_parse {whole : Bytes} (h : parse whole = .ok f)
    (hlen : overhead + 1 ≤ whole.length) :
    whole[1]? = some f.length ∧ f.checksum = carried whole := by
  obtain ⟨first, header, rest, rfl, hheader, hfront, -, hsum⟩ := of_parse h
  have hend : (header ++ rest).length - 2 = header.length + (rest.length - 2) := by
    rw [List.length_append, hheader] at hlen ⊢
    simp only [headerSize, overhead] at hlen ⊢
    omega
  refine ⟨?_, ?_⟩
  · rw [hfront]
    rfl
  · rw [hsum, carried, carried, hend, List.drop_length_add_append]

/-- What a reader accepts is a whole frame of the length that it reports. -/
theorem of_decode (h : decode buf = .ok f) : buf[1]? = some f.length
    ∧ wholeSize buf = .ok (f.length.toNat + 1)
    ∧ f.checksum = carried (buf.take (f.length.toNat + 1)) := by
  obtain ⟨n, hsize, hparse⟩ := decode_eq_ok_iff.1 h
  obtain ⟨hsecond, hchecksum⟩ := ends_of_parse hparse (length_whole hsize)
  obtain ⟨length, rest, rfl, hover, rfl, -⟩ := wholeSize_eq_ok_iff.1 hsize
  have hlength : length = f.length := by
    rw [List.getElem?_take_of_lt (by simp only [overhead] at hover; omega)] at hsecond
    exact Option.some.inj hsecond
  subst hlength
  exact ⟨rfl, hsize, hchecksum⟩

/-- Bytes after a whole frame change nothing for either reader, whether it accepts the frame or not.
The checking reader accepts what the other one reads with the checksum of the whole frame, finds the
same fault where there is no whole frame, and finds a wrong checksum before all faults of the data
field. -/
theorem decoders_agree (buf : Bytes) :
    (IsWhole buf → ∀ ext, decode (buf ++ ext) = decode buf
      ∧ decodeVerified (buf ++ ext) = decodeVerified buf)
    ∧ (∀ f, decode buf = .ok f → IsWhole buf ∧ buf[1]? = some f.length)
    ∧ (∀ f, decodeVerified buf = .ok f ↔
      decode buf = .ok f ∧ f.checksum = Crc.ofFrame (buf.take (f.length.toNat + 1)))
    ∧ (¬ IsWhole buf → ∃ e, decode buf = .error e ∧ decodeVerified buf = .error e)
    ∧ (IsWhole buf → ∀ length, buf[1]? = some length →
      let whole := buf.take (length.toNat + 1)
      carried whole ≠ Crc.ofFrame whole →
        decodeVerified buf = .error (.checksum (Crc.ofFrame whole) (carried whole))) := by
  refine ⟨fun hwhole ext => ?_, fun f hf => ?_, fun f => ⟨fun hf => ?_, ?_⟩, fun hnot => ?_,
    fun hwhole length hlength => ?_⟩
  · obtain ⟨n, hsize⟩ := isWhole_iff.1 hwhole
    obtain ⟨hext, htake⟩ := wholeSize_extend hsize ext
    have hdecode : decode (buf ++ ext) = decode buf := by
      rw [decode_eq hext, htake, decode_eq hsize]
    refine ⟨hdecode, ?_⟩
    rw [decodeVerified_eq hext, htake, hdecode, decodeVerified_eq hsize]
  · obtain ⟨hlength, hsize, -⟩ := of_decode hf
    exact ⟨isWhole_iff.2 ⟨_, hsize⟩, hlength⟩
  · rcases hsize : wholeSize buf with e | n
    · rw [(decoders_of_error hsize).2] at hf
      cases hf
    · rw [decodeVerified_eq hsize] at hf
      split_ifs at hf with hsum
      obtain ⟨-, hsize', hchecksum⟩ := of_decode hf
      obtain rfl : n = f.length.toNat + 1 := Except.ok.inj (hsize.symm.trans hsize')
      exact ⟨hf, hchecksum.trans hsum⟩
  · rintro ⟨hf, hsum⟩
    obtain ⟨-, hsize, hchecksum⟩ := of_decode hf
    rw [decodeVerified_eq hsize, if_pos (hchecksum.symm.trans hsum), hf]
  · rcases hsize : wholeSize buf with e | n
    · exact ⟨e, decoders_of_error hsize⟩
    · exact absurd (isWhole_iff.2 ⟨n, hsize⟩) hnot
  · obtain ⟨n, hsize⟩ := isWhole_iff.1 hwhole
    obtain ⟨length', rest, rfl, -, rfl, -⟩ := wholeSize_eq_ok_iff.1 hsize
    obtain rfl : length' = length := Option.some.inj hlength
    intro whole hwrong
    rw [decodeVerified_eq hsize, if_neg hwrong]

/-- A frame around a field of a format that does not exist, with a checksum that is wrong, alone and
with the start of another frame behind it; and the same frame cut by one byte. -/
theorem decoders_agree_unreadable :
    let buf : Bytes := [0x7e, 13, 0, 0, 0, 0, 0, 0x21, 0xae, 0x42, 0, 2, 0, 0]
    (decode (buf ++ [0x7e, 13]) = .error (.unknownFormat 2)
        ∧ decodeVerified (buf ++ [0x7e, 13]) = .error (.checksum (Crc.ofFrame buf) 0))
      ∧ (∃ e, decode (buf.take 13) = .error e ∧ decodeVerified (buf.take 13) = .error e)
      ∧ ∀ f, decodeVerified buf ≠ .ok f := by
  intro buf
  have hwhole : IsWhole buf := ⟨rfl, by decide, 13, rfl, by decide, by decide⟩
  have hcut : ¬ IsWhole (buf.take 13) := by
    rintro ⟨-, -, length, hlength, -, hlen⟩
    obtain rfl : 13 = length := Option.some.inj hlength
    exact absurd hlen (by decide)
  obtain ⟨hlocal, -, hsame, -, hchecksum⟩ := decoders_agree buf
  obtain ⟨-, -, -, hfault, -⟩ := decoders_agree (buf.take 13)
  have hplain : decode buf = .error (.unknownFormat 2) := by rfl
  have hverified : decodeVerified buf = .error (.checksum (Crc.ofFrame buf) 0) :=
    hchecksum hwhole 13 rfl (by decide +kernel)
  obtain ⟨hdecode, hdecodeVerified⟩ := hlocal hwhole [0x7e, 13]
  refine ⟨⟨hdecode.trans hplain, hdecodeVerified.trans hverified⟩, hfault hcut, fun f hf => ?_⟩
  rw [hplain] at hsame
  exact nomatch ((hsame f).1 hf).1

end Frame

end MeterLink

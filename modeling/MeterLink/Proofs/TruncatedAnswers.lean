import MeterLink.Proofs.Attempts
import MeterLink.Proofs.FieldGrammar
import MeterLink.Proofs.FrameLocality

/-!
# Answers that end too early

An answer may end in the middle of its frame, the data field of a whole frame may lack a part of
its header or of its block (`DataField.CutShort`), and a payload may be shorter than what is read
from it. These are the answers that are reported as truncated, and no others
(`cutOff_readFrame_iff`): a frame that is damaged or a field that cannot be read is something else.
-/

namespace MeterLink

/-- What was read ended too early. -/
def CutOff {α : Type} (r : Except CodecFault α) : Prop :=
  ∃ needed available, r = .error (.truncated needed available)

section CutOff

variable {α β : Type}

@[simp]
theorem not_cutOff_ok (a : α) : ¬ CutOff (.ok a) := by
  rintro ⟨_, _, h⟩
  cases h

@[simp]
theorem cutOff_error_iff {e : CodecFault} : CutOff (.error e : Except CodecFault α)
    ↔ ∃ needed available, e = .truncated needed available := by
  simp [CutOff]

theorem cutOff_map_iff {r : Except CodecFault α} {f : α → β} : CutOff (r.map f) ↔ CutOff r := by
  rcases r with e | a
  · exact cutOff_error_iff.trans cutOff_error_iff.symm
  · exact iff_of_false (not_cutOff_ok (f a)) (not_cutOff_ok a)

end CutOff

namespace DataField

/-- A data field that ends before its header or its block does. -/
inductive CutShort : Bytes → Prop
  | empty : CutShort []
  | header {buf : Bytes} {tag : UInt8} (first : buf[0]? = some tag)
    (known : tag = 1 ∨ tag = 3 ∨ tag = 4) (short : buf.length < 5) : CutShort buf
  | block {buf : Bytes} {tag : UInt8} (first : buf[0]? = some tag) (log : tag = 3 ∨ tag = 4)
    (long : 6 ≤ buf.length) (short : buf.length < 85) : CutShort buf

theorem cutOff_decodeObject_iff {body : Bytes} : CutOff (decodeObject body) ↔ body.length < 4 := by
  constructor
  · rintro ⟨needed, available, h⟩
    by_contra hlong
    match body, hlong with
    | b₀ :: b₁ :: b₂ :: flag :: payload, _ =>
      rcases Access.ofFlag_cases flag with ⟨access, hflag, -⟩ | ⟨-, hflag⟩
      · rw [decodeObject, hflag] at h
        cases h
      · rw [decodeObject, hflag] at h
        cases h
    | [], hlong | [_], hlong | [_, _], hlong | [_, _, _], hlong => exact hlong (by simp)
  · exact fun h => ⟨_, _, decodeObject_short h⟩

theorem cutOff_decodeProfile_iff {log : ProfileLog} {body : Bytes} :
    CutOff (decodeProfile log body) ↔ body.length < 4 ∨ 4 < body.length ∧ body.length < 84 := by
  by_cases hshort : body.length < 4
  · exact iff_of_true ⟨_, _, decodeProfile_short hshort⟩ (.inl hshort)
  by_cases hblock : 4 < body.length ∧ body.length < 84
  · exact iff_of_true ⟨_, _, decodeProfile_block hblock.1 hblock.2⟩ (.inr hblock)
  obtain ⟨data, hdata⟩ := (@exists_decodeProfile_iff log body).2 (by omega)
  rw [hdata]
  exact iff_of_false (not_cutOff_ok data) (by omega)

theorem cutOff_decode_iff : ∀ {buf : Bytes}, CutOff (decode buf) ↔ CutShort buf
  | [] => iff_of_true ⟨1, 0, rfl⟩ .empty
  | tag :: body => by
    have hfirst : (tag :: body)[0]? = some tag := rfl
    have htag : ∀ {t}, (tag :: body)[0]? = some t → t = tag := fun h => (Option.some.inj h).symm
    by_cases h1 : tag = 1
    · subst h1
      rw [decode_cons_object, cutOff_decodeObject_iff]
      constructor
      · exact fun h => .header hfirst (.inl rfl) (Nat.succ_lt_succ h)
      · rintro (_ | ⟨_, _, hshort⟩ | ⟨ht, hlog, _, _⟩)
        · exact Nat.lt_of_succ_lt_succ hshort
        · rw [htag ht] at hlog
          exact absurd hlog (by decide)
    by_cases h34 : tag = 3 ∨ tag = 4
    · obtain ⟨log, hlog⟩ := decode_cons_profile h34
      rw [hlog, cutOff_decodeProfile_iff]
      constructor
      · rintro (h | ⟨hlong, hshort⟩)
        · exact .header hfirst (.inr h34) (Nat.succ_lt_succ h)
        · exact .block hfirst h34 (Nat.succ_le_succ hlong) (Nat.succ_lt_succ hshort)
      · rintro (_ | ⟨_, _, hshort⟩ | ⟨_, _, hlong, hshort⟩)
        · exact .inl (Nat.lt_of_succ_lt_succ hshort)
        · exact .inr ⟨Nat.le_of_succ_le_succ hlong, Nat.lt_of_succ_lt_succ hshort⟩
    · obtain ⟨h3, h4⟩ := not_or.1 h34
      rw [decode_unknown h1 h3 h4]
      refine iff_of_false (by simp) ?_
      rintro (_ | ⟨ht, hknown, _⟩ | ⟨ht, hlog, _, _⟩)
      · rw [htag ht] at hknown
        exact hknown.elim h1 h34
      · exact h34 (htag ht ▸ hlog)

end DataField

namespace Frame

/-- A frame that ends before its header or before the length that it declares. -/
inductive CutShort : Bytes → Prop
  | empty : CutShort []
  | header {buf : Bytes} (first : buf[0]? = some 0x7e) (short : buf.length < 11) : CutShort buf
  | declared {buf : Bytes} {length : UInt8} (first : buf[0]? = some 0x7e)
    (second : buf[1]? = some length) (valid : 12 ≤ length.toNat) (short : buf.length ≤ length.toNat) :
    CutShort buf

theorem cutOff_wholeSize_iff : ∀ {buf : Bytes}, CutOff (wholeSize buf) ↔ CutShort buf
  | [] => iff_of_true ⟨1, 0, rfl⟩ .empty
  | first :: rest => by
    by_cases hfirst : first = delimiter
    · subst hfirst
      by_cases hheader : (delimiter :: rest).length < headerSize
      · refine iff_of_true ⟨headerSize, (delimiter :: rest).length, ?_⟩ (.header rfl hheader)
        simp only [wholeSize, ne_eq, not_true_eq_false, if_false, hheader, if_true]
      obtain ⟨length, rest, rfl⟩ : ∃ length more, rest = length :: more := by
        cases rest with
        | nil => simp [headerSize] at hheader
        | cons length more => exact ⟨length, more, rfl⟩
      have hcut : CutShort (delimiter :: length :: rest) ↔ overhead ≤ length.toNat
          ∧ (delimiter :: length :: rest).length < length.toNat + 1 := by
        constructor
        · rintro (_ | ⟨_, hshort⟩ | ⟨_, hlength, hvalid, hshort⟩)
          · exact absurd hshort hheader
          · cases hlength
            exact ⟨hvalid, Nat.lt_succ_of_le hshort⟩
        · rintro ⟨hvalid, hshort⟩
          exact .declared rfl rfl hvalid (Nat.le_of_lt_succ hshort)
      rw [hcut]
      by_cases hvalid : length.toNat < overhead
      · simp only [wholeSize, ne_eq, not_true_eq_false, if_false, hheader, List.headD_cons, hvalid,
          if_true]
        exact iff_of_false (by simp) fun h => Nat.not_le.2 hvalid h.1
      by_cases hshort : (delimiter :: length :: rest).length < length.toNat + 1
      · simp only [wholeSize, ne_eq, not_true_eq_false, if_false, hheader, List.headD_cons, hvalid,
          hshort, if_true]
        exact iff_of_true ⟨_, _, rfl⟩ ⟨Nat.not_lt.1 hvalid, trivial⟩
      · simp only [wholeSize, ne_eq, not_true_eq_false, if_false, hheader, List.headD_cons, hvalid,
          hshort]
        exact iff_of_false (not_cutOff_ok _) And.right
    · have hbad : wholeSize (first :: rest) = .error (.badDelimiter first) := by
        simp only [wholeSize, ne_eq, hfirst, not_false_eq_true, if_true]
      rw [hbad]
      refine iff_of_false (by simp) ?_
      rintro (_ | ⟨h, _⟩ | ⟨h, _, _, _⟩)
      · exact hfirst (Option.some.inj h)
      · exact hfirst (Option.some.inj h)

/-- The bytes between the header of a frame and its checksum. -/
def fieldOf (whole : Bytes) : Bytes := (whole.drop 11).take (whole.length - 13)

theorem cutOff_parse_iff {whole : Bytes} (h : overhead + 1 ≤ whole.length) :
    CutOff (parse whole) ↔ DataField.CutShort (fieldOf whole) := by
  simp only [overhead] at h
  have hheader : (whole.take headerSize).length = headerSize :=
    List.length_take_of_le (by rw [headerSize]; omega)
  obtain ⟨_, _, _, _, _, -, hparse⟩ := parse_append hheader
  have hfield : (whole.drop headerSize).take ((whole.drop headerSize).length - 2)
      = fieldOf whole := by
    rw [List.length_drop, Nat.sub_sub]
    rfl
  rw [← List.take_append_drop headerSize whole, hparse, cutOff_map_iff, hfield,
    DataField.cutOff_decode_iff, List.take_append_drop]

end Frame

/-! ## Answers of a transaction -/

namespace TransactionSettings

variable (settings : TransactionSettings) {reply : Bytes}

/-- A whole frame is not turned down for its checksum. -/
def Passes (whole : Bytes) : Prop :=
  settings.verifyChecksum = true → Frame.carried whole = Crc.ofFrame whole

/-- An answer that ends before so many bytes of payload: within its frame, within its data field or
within the payload. -/
inductive CutShort (width : Nat) : Bytes → Prop
  | frame {reply : Bytes} (short : Frame.CutShort reply) : CutShort width reply
  | field {reply : Bytes} {length : UInt8} (whole : Frame.IsWhole reply)
    (second : reply[1]? = some length) (passes : settings.Passes (reply.take (length.toNat + 1)))
    (short : DataField.CutShort (Frame.fieldOf (reply.take (length.toNat + 1)))) :
    CutShort width reply
  | payload {reply : Bytes} {frame : Frame} (read : settings.readFrame reply = .ok frame)
    (short : frame.data.payload.length < width) : CutShort width reply

theorem readFrame_of_error {e : CodecFault} (h : Frame.wholeSize reply = .error e) :
    settings.readFrame reply = .error e := by
  obtain ⟨hdec, hver⟩ := Frame.decoders_of_error h
  rw [readFrame, hdec, hver, ite_self]

theorem cutOff_readFrame_iff_of_whole {n : Nat} (h : Frame.wholeSize reply = .ok n) :
    CutOff (settings.readFrame reply) ↔ settings.Passes (reply.take n)
      ∧ DataField.CutShort (Frame.fieldOf (reply.take n)) := by
  rw [← Frame.cutOff_parse_iff (Frame.length_whole h), ← Frame.decode_eq h, readFrame, Passes,
    Frame.decodeVerified_eq h]
  by_cases hverify : settings.verifyChecksum = true
  · rw [if_pos hverify]
    split_ifs with hsum
    · simp [hsum]
    · simp [hverify, hsum]
  · simp [hverify]

theorem cutOff_readFrame_iff : CutOff (settings.readFrame reply) ↔ Frame.CutShort reply
    ∨ ∃ length, Frame.IsWhole reply ∧ reply[1]? = some length
      ∧ settings.Passes (reply.take (length.toNat + 1))
      ∧ DataField.CutShort (Frame.fieldOf (reply.take (length.toNat + 1))) := by
  rcases hsize : Frame.wholeSize reply with e | n
  · have hnot : ¬ Frame.IsWhole reply := by
      rw [Frame.isWhole_iff, hsize]
      simp
    rw [settings.readFrame_of_error hsize, ← Frame.cutOff_wholeSize_iff, hsize]
    simp [hnot]
  · have hwhole : ¬ Frame.CutShort reply := by
      rw [← Frame.cutOff_wholeSize_iff, hsize]
      exact not_cutOff_ok n
    obtain ⟨length, rest, hreply, -, rfl, -⟩ := Frame.wholeSize_eq_ok_iff.1 hsize
    have hsecond : reply[1]? = some length := by rw [hreply]; rfl
    rw [settings.cutOff_readFrame_iff_of_whole hsize]
    simp [hwhole, hsecond, Frame.isWhole_iff.2 ⟨_, hsize⟩]

end TransactionSettings

/-- The result is a failure that says so of an answer. -/
def Truncates {α : Type} (r : Except Failure α) : Prop := ∃ e, r = .error e ∧ e.IsTruncation

theorem truncates_codec_iff {α β : Type} {fault : CodecFault} :
    Truncates (.error (.codec fault) : Except Failure α)
      ↔ CutOff (.error fault : Except CodecFault β) := by
  cases fault <;> simp [Truncates, Failure.IsTruncation]

/-- What is read from `width` bytes of payload is truncated exactly if the answer ends before
them. -/
theorem truncates_iff_cutShort {α : Type} {width : Nat} {f : Bytes → Except Failure α}
    (hf : ∀ payload, Truncates (f payload) ↔ payload.length < width)
    (settings : TransactionSettings) (reply : Bytes) :
    Truncates (((settings.readFrame reply).mapError .codec).bind fun frame => f frame.data.payload)
      ↔ settings.CutShort width reply := by
  rcases hread : settings.readFrame reply with fault | frame
  · refine (@truncates_codec_iff α Frame fault).trans ?_
    rw [← hread, settings.cutOff_readFrame_iff]
    constructor
    · rintro (hframe | ⟨length, hwhole, hsecond, hpasses, hshort⟩)
      · exact .frame hframe
      · exact .field hwhole hsecond hpasses hshort
    · rintro (⟨hframe⟩ | ⟨hwhole, hsecond, hpasses, hshort⟩ | ⟨hok, -⟩)
      · exact .inl hframe
      · exact .inr ⟨_, hwhole, hsecond, hpasses, hshort⟩
      · rw [hread] at hok
        cases hok
  · have hnot : ¬ CutOff (settings.readFrame reply) := by
      rw [hread]
      exact not_cutOff_ok frame
    rw [settings.cutOff_readFrame_iff, not_or, not_exists] at hnot
    refine (hf frame.data.payload).trans ⟨fun hshort => .payload hread hshort, ?_⟩
    rintro (⟨hframe⟩ | ⟨hwhole, hsecond, hpasses, hshort⟩ | ⟨hok, hshort⟩)
    · exact absurd hframe hnot.1
    · exact absurd ⟨hwhole, hsecond, hpasses, hshort⟩ (hnot.2 _)
    · rw [hread] at hok
      cases hok
      exact hshort

end MeterLink

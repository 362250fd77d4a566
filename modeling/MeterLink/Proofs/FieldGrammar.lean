import MeterLink.Proofs.RawFields

/-!
# The grammar of data fields

The first byte of a field chooses the format, and the rest is read by the format's own reader. Each
reader takes some lengths and refuses the others with a fault that names what was missing
(`exists_decodeObject_iff`, `exists_decodeProfile_iff`). The faults are looked for in one order:
the format, then the header, then what the header says or what follows it (`decode_grammar`).
-/

namespace MeterLink

theorem FieldFormat.ofTag_unknown {tag : UInt8} (h1 : tag ≠ 1) (h3 : tag ≠ 3) (h4 : tag ≠ 4) :
    ofTag tag = .error (.unknownFormat tag) := by
  rcases ofTag_cases tag with ⟨_ | ⟨_ | _⟩, -, rfl⟩ | ⟨-, h⟩
  · exact absurd rfl h1
  · exact absurd rfl h3
  · exact absurd rfl h4
  · exact h

theorem Access.ofFlag_unknown {flag : UInt8} (h0 : flag ≠ 0) (h1 : flag ≠ 1) :
    ofFlag flag = .error (.invalid (.accessFlag flag)) := by
  rcases ofFlag_cases flag with ⟨_ | _, -, rfl⟩ | ⟨-, h⟩
  · exact absurd rfl h0
  · exact absurd rfl h1
  · exact h

theorem Access.exists_ofFlag_iff {flag : UInt8} :
    (∃ access, ofFlag flag = .ok access) ↔ flag = 0 ∨ flag = 1 := by
  rcases ofFlag_cases flag with ⟨_ | _, h, rfl⟩ | ⟨⟨h0, h1⟩, h⟩
  · exact iff_of_true ⟨_, h⟩ (.inl rfl)
  · exact iff_of_true ⟨_, h⟩ (.inr rfl)
  · rw [h]
    exact iff_of_false (by simp) (by simp [h0, h1])

namespace DataField

/-! ## Objects -/

theorem decodeObject_short : ∀ {body : Bytes}, body.length < 4 →
    decodeObject body = .error (.truncated 5 (body.length + 1))
  | [], _ | [_], _ | [_, _], _ | [_, _, _], _ => rfl
  | _ :: _ :: _ :: _ :: _, h => absurd h (by simp)

theorem decodeObject_flag : ∀ {body : Bytes} {flag : UInt8}, body[3]? = some flag →
    flag ≠ 0 → flag ≠ 1 → decodeObject body = .error (.invalid (.accessFlag flag))
  | _ :: _ :: _ :: _ :: _, _, rfl, h0, h1 => by
    rw [decodeObject, Access.ofFlag_unknown h0 h1]
    rfl

theorem exists_decodeObject_iff : ∀ {body : Bytes}, (∃ data, decodeObject body = .ok data) ↔
    4 ≤ body.length ∧ (body[3]? = some 0 ∨ body[3]? = some 1)
  | b₀ :: b₁ :: b₂ :: flag :: payload => by
    have hread : (∃ data, decodeObject (b₀ :: b₁ :: b₂ :: flag :: payload) = .ok data)
        ↔ ∃ access, Access.ofFlag flag = .ok access := by
      rcases hflag : Access.ofFlag flag with e | access
      · simp [decodeObject, hflag, bind, Except.bind]
      · simp [decodeObject, hflag, bind, Except.bind, pure, Except.pure]
    rw [hread, Access.exists_ofFlag_iff]
    simp
  | [] | [_] | [_, _] | [_, _, _] => by simp [decodeObject]

/-! ## Profile logs -/

variable {log : ProfileLog}

theorem decodeProfile_short : ∀ {body : Bytes}, body.length < 4 →
    decodeProfile log body = .error (.truncated 5 (body.length + 1))
  | [], _ | [_], _ | [_, _], _ | [_, _, _], _ => rfl
  | _ :: _ :: _ :: _ :: _, h => absurd h (by simp)

theorem decodeProfile_block : ∀ {body : Bytes}, 4 < body.length → body.length < 84 →
    decodeProfile log body = .error (.truncated 85 (body.length + 1))
  | t₀ :: t₁ :: t₂ :: t₃ :: b :: rest, _, h => by
    have hlen : ¬ 80 ≤ (b :: rest).length := by
      simp only [List.length_cons] at h ⊢
      omega
    simp only [decodeProfile, List.isEmpty_cons, Bool.false_eq_true, if_false, dif_neg hlen]
    rfl
  | [], h, _ | [_], h, _ | [_, _], h, _ | [_, _, _], h, _ | [_, _, _, _], h, _ => by
    simp at h

theorem exists_decodeProfile_iff {body : Bytes} : (∃ data, decodeProfile log body = .ok data) ↔
    body.length = 4 ∨ 84 ≤ body.length := by
  by_cases hshort : body.length < 4
  · rw [decodeProfile_short hshort]
    exact iff_of_false (by simp) (by omega)
  rcases body with _ | ⟨t₀, _ | ⟨t₁, _ | ⟨t₂, _ | ⟨t₃, rest⟩⟩⟩⟩
  · simp at hshort
  · simp at hshort
  · simp at hshort
  · simp at hshort
  cases rest with
  | nil => simp [decodeProfile]
  | cons b rest =>
    by_cases h : 80 ≤ (b :: rest).length
    · simp only [decodeProfile, List.isEmpty_cons, Bool.false_eq_true, if_false, dif_pos h]
      simp only [List.length_cons] at h ⊢
      exact iff_of_true ⟨_, rfl⟩ (by omega)
    · simp only [decodeProfile, List.isEmpty_cons, Bool.false_eq_true, if_false, dif_neg h]
      simp only [List.length_cons] at h ⊢
      exact iff_of_false (by simp) (by omega)

/-! ## All fields -/

theorem decode_cons_object (body : Bytes) : decode (1 :: body) = decodeObject body := rfl

theorem decode_cons_profile {tag : UInt8} (h : tag = 3 ∨ tag = 4) :
    ∃ log, ∀ body, decode (tag :: body) = decodeProfile log body := by
  rcases h with rfl | rfl
  · exact ⟨.first, fun _ => rfl⟩
  · exact ⟨.second, fun _ => rfl⟩

theorem decode_unknown {tag : UInt8} (h1 : tag ≠ 1) (h3 : tag ≠ 3) (h4 : tag ≠ 4) (body : Bytes) :
    decode (tag :: body) = .error (.unknownFormat tag) := by
  simp only [decode, FieldFormat.ofTag_unknown h1 h3 h4]
  rfl

theorem exists_decode_iff : ∀ {buf : Bytes}, (∃ data, decode buf = .ok data) ↔
    (buf[0]? = some 1 ∧ 5 ≤ buf.length ∧ (buf[4]? = some 0 ∨ buf[4]? = some 1))
      ∨ ((buf[0]? = some 3 ∨ buf[0]? = some 4) ∧ (buf.length = 5 ∨ 85 ≤ buf.length))
  | [] => by simp [decode]
  | tag :: body => by
    simp only [List.getElem?_cons_zero, List.getElem?_cons_succ, List.length_cons,
      Option.some.injEq]
    by_cases h1 : tag = 1
    · subst h1
      have hlog : ¬ ((1 : UInt8) = 3 ∨ (1 : UInt8) = 4) := by decide
      rw [decode_cons_object, exists_decodeObject_iff]
      simp only [hlog, true_and, false_and, or_false, Nat.succ_le_succ_iff]
    · by_cases h34 : tag = 3 ∨ tag = 4
      · obtain ⟨log, hlog⟩ := decode_cons_profile h34
        rw [hlog, exists_decodeProfile_iff]
        simp only [h1, h34, false_and, false_or, true_and]
        omega
      · obtain ⟨h3, h4⟩ := not_or.1 h34
        rw [decode_unknown h1 h3 h4]
        simp [h1, h3, h4]

/-- A field is read exactly if it is an object with a full header and a flag that exists, or a
profile log with a full header and then nothing or a whole block. Written again it is the same
bytes, a profile log up to the end of its block. The fault of any other field is fixed by its bytes:
its format comes first, at any length, then its header, then the flag of an object or the block of a
profile log. All fields are written with their size, and are read back. -/
theorem decode_grammar (buf : Bytes) :
    ((∃ data, decode buf = .ok data) ↔
      (buf[0]? = some 1 ∧ 5 ≤ buf.length ∧ (buf[4]? = some 0 ∨ buf[4]? = some 1))
        ∨ ((buf[0]? = some 3 ∨ buf[0]? = some 4) ∧ (buf.length = 5 ∨ 85 ≤ buf.length)))
    ∧ (∀ data, decode buf = .ok data →
      (buf[0]? = some 1 → data.encode = buf)
        ∧ (buf[0]? = some 3 ∨ buf[0]? = some 4 →
          (buf.length = 5 → data.encode = buf.take 5)
            ∧ (85 ≤ buf.length → data.encode = buf.take 85)))
    ∧ (buf = [] → decode buf = .error (.truncated 1 0))
    ∧ (∀ tag, buf[0]? = some tag →
      ((tag ≠ 1 ∧ tag ≠ 3 ∧ tag ≠ 4) → decode buf = .error (.unknownFormat tag))
        ∧ (tag = 1 ∨ tag = 3 ∨ tag = 4 → buf.length < 5 →
          decode buf = .error (.truncated 5 buf.length))
        ∧ (tag = 1 → ∀ flag, buf[4]? = some flag → flag ≠ 0 → flag ≠ 1 →
          decode buf = .error (.invalid (.accessFlag flag)))
        ∧ (tag = 3 ∨ tag = 4 → 6 ≤ buf.length → buf.length ≤ 84 →
          decode buf = .error (.truncated 85 buf.length)))
    ∧ ∀ data : DataField, data.encode.length = data.size ∧ decode data.encode = .ok data := by
  refine ⟨exists_decode_iff, fun data h => ?_, fun h => by rw [h]; rfl, fun tag htag => ?_,
    fun data => ⟨length_encode data, decode_encode data⟩⟩
  · have hsent : data.encode = sentPart buf := encode_of_decode h
    rw [hsent, sentPart, List.head?_eq_getElem?]
    refine ⟨fun h1 => if_pos h1, fun h34 => ?_⟩
    have h1 : buf[0]? ≠ some 1 := by
      rcases h34 with h | h <;> rw [h] <;> decide
    rw [if_neg h1]
    refine ⟨fun hlen => ?_, fun _ => rfl⟩
    rw [List.take_of_length_le (Nat.le_of_eq hlen), List.take_of_length_le (by omega)]
  · obtain ⟨body, rfl⟩ : ∃ body, buf = tag :: body := List.head?_eq_some_iff.1
      (List.head?_eq_getElem?.trans htag)
    simp only [List.length_cons, List.getElem?_cons_succ]
    refine ⟨?_, ?_, ?_, ?_⟩
    · rintro ⟨h1, h3, h4⟩
      exact decode_unknown h1 h3 h4 body
    · rintro (rfl | h34) hshort
      · exact decodeObject_short (by omega)
      · obtain ⟨log, hlog⟩ := decode_cons_profile h34
        rw [hlog, decodeProfile_short (by omega)]
    · rintro rfl flag hflag h0 h1
      exact decodeObject_flag hflag h0 h1
    · intro h34 hlo hhi
      obtain ⟨log, hlog⟩ := decode_cons_profile h34
      rw [hlog, decodeProfile_block (by omega) (by omega)]

/-- A log of 87 bytes loses two, one of 84 lacks its last, and a format that does not exist comes
before a header that is not there. -/
theorem decode_grammar_edges :
    let zeros (n : Nat) : Bytes := List.replicate n 0
    (∃ data, decode (3 :: zeros 86) = .ok data ∧ data.encode = 3 :: zeros 84)
      ∧ decode (4 :: zeros 83) = .error (.truncated 85 84)
      ∧ decode [1, 0, 0, 0, 2, 9] = .error (.invalid (.accessFlag 2))
      ∧ decode [2] = .error (.unknownFormat 2) ∧ decode [1] = .error (.truncated 5 1) := by
  intro zeros
  obtain ⟨haccept, hback, -⟩ := decode_grammar (3 :: zeros 86)
  obtain ⟨data, hdata⟩ := haccept.2 (.inr ⟨.inl rfl, .inr (by decide)⟩)
  obtain ⟨-, -, hblock⟩ := ((decode_grammar (4 :: zeros 83)).2.2.2.1 4 rfl).2
  obtain ⟨-, -, hflag, -⟩ := (decode_grammar [1, 0, 0, 0, 2, 9]).2.2.2.1 1 rfl
  obtain ⟨hformat, -⟩ := (decode_grammar [2]).2.2.2.1 2 rfl
  obtain ⟨-, hheader, -⟩ := (decode_grammar [1]).2.2.2.1 1 rfl
  exact ⟨⟨data, hdata, ((hback data hdata).2 (.inl rfl)).2 (by decide)⟩,
    hblock (.inr rfl) (by decide) (by decide), hflag rfl 2 rfl (by decide) (by decide),
    hformat (by decide), hheader (.inl rfl) (by decide)⟩

end DataField

end MeterLink

import MeterLink.Proofs.Numerals

/-!
# Bytes as a person types them

A row of digits is read to the bytes that its digits stand for, two for each byte, and nothing
else is read (`decode_eq_ok_iff`): in UTF-8 no byte of another character is a digit. What a person
types is such a row with blanks put in anywhere, also between the two digits of a byte, and with or
without `0x` in front of it, which may have blanks in it too (`decodeSpaced_typed`).
-/

namespace MeterLink.Hex

/-! ## Rows of digits -/

section Digits

variable {s : List Char} {bs : Bytes}

/-- The bytes are the codes of digits with these values. -/
abbrev DigitCodes (codes : Bytes) (vs : List Nat) : Prop :=
  List.Forall₂ (fun b v => valueOfCode? b.toNat = some v) codes vs

/-- An even number of digits is what some bytes are written in. -/
theorem exists_halves_iff : ∀ {s : List Char},
    (∃ bs, List.Forall₂ IsHexDigit s (halves bs)) ↔
      s.length % 2 = 0 ∧ ∀ c ∈ s, ∃ v, IsHexDigit c v
  | [] => ⟨fun _ => ⟨rfl, nofun⟩, fun _ => ⟨[], .nil⟩⟩
  | [c] => by
    refine iff_of_false ?_ (by simp)
    rintro ⟨bs, h⟩
    have hlen := h.length_eq
    rw [length_halves, List.length_singleton] at hlen
    omega
  | c :: d :: s => by
    have ih := exists_halves_iff (s := s)
    simp only [List.length_cons, List.forall_mem_cons]
    constructor
    · rintro ⟨bs, h⟩
      cases bs with
      | nil => cases h
      | cons b bs =>
        rw [halves_cons, List.forall₂_cons, List.forall₂_cons] at h
        obtain ⟨hc, hd, h⟩ := h
        obtain ⟨heven, hs⟩ := ih.1 ⟨bs, h⟩
        exact ⟨by omega, ⟨_, hc⟩, ⟨_, hd⟩, hs⟩
    · rintro ⟨heven, ⟨v, hc⟩, ⟨w, hd⟩, hs⟩
      obtain ⟨bs, h⟩ := ih.2 ⟨by omega, hs⟩
      refine ⟨UInt8.ofNat (16 * v + w) :: bs, ?_⟩
      rw [halves_ofNat hc.lt hd.lt]
      exact .cons hc (.cons hd h)

theorem halves_of_decodePairs : ∀ {codes : Bytes} {offset : Nat} {bs : Bytes},
    codes.length % 2 = 0 → decodePairs offset codes = .ok bs → DigitCodes codes (halves bs)
  | [], _, bs, _, h => by
    cases h
    exact .nil
  | [_], _, _, heven, _ => nomatch heven
  | hi :: lo :: rest, offset, bs, heven, h => by
    unfold decodePairs at h
    split at h
    · rename_i v w hv hw
      rcases hrest : decodePairs (offset + 2) rest with e | tail
      · rw [hrest] at h
        cases h
      · rw [hrest] at h
        cases h
        rw [List.length_cons, List.length_cons] at heven
        rw [halves_ofNat (valueOfCode?_lt hv).2 (valueOfCode?_lt hw).2]
        exact .cons hv (.cons hw (halves_of_decodePairs (by omega) hrest))
    · cases h
    · cases h

theorem decodePairs_halves : ∀ {bs codes : Bytes} {offset : Nat},
    DigitCodes codes (halves bs) → decodePairs offset codes = .ok bs
  | [], _, _, h => by
    cases h
    rfl
  | b :: bs, codes, offset, h => by
    rw [halves_cons] at h
    obtain _ | ⟨hhi, _ | ⟨hlo, h⟩⟩ := h
    have hb : 16 * (b.toNat / 16) + b.toNat % 16 = b.toNat := Nat.div_add_mod _ _
    rw [decodePairs, hhi, hlo]
    dsimp only
    rw [decodePairs_halves h, hb, UInt8.ofNat_toNat]
    rfl

theorem codes_iff_of_lt {vs : List Nat} (hs : ∀ c ∈ s, c.toNat < 128) :
    DigitCodes (String.ofList s).toUTF8.toList vs ↔ List.Forall₂ IsHexDigit s vs := by
  have hdigit {c : Char} {v : Nat} (hc : c.toNat < 128) :
      valueOfCode? (UInt8.ofNat c.toNat).toNat = some v ↔ IsHexDigit c v := by
    rw [UInt8.toNat_ofNat', Nat.mod_eq_of_lt (by omega)]
    exact digitValue?_eq_some_iff
  rw [DigitCodes, toList_toUTF8_of_lt (by rwa [String.toList_ofList]), String.toList_ofList,
    List.forall₂_map_left_iff, List.forall₂_iff_zip, List.forall₂_iff_zip]
  refine and_congr_right fun _ => forall₂_congr fun c v => forall_congr' fun hmem => ?_
  exact hdigit (hs c (List.of_mem_zip hmem).1)

/-- The bytes of a text are the codes of digits exactly if its characters are these digits. -/
theorem codes_iff {vs : List Nat} :
    DigitCodes (String.ofList s).toUTF8.toList vs ↔ List.Forall₂ IsHexDigit s vs := by
  constructor
  · intro h
    -- the codes of digits are below 128, and only characters below 128 have such bytes
    have hlt : ∀ b ∈ (String.ofList s).toUTF8.toList, b.toNat < 128 := by
      intro b hb
      obtain ⟨v, hv⟩ := exists_of_forall₂ h hb
      exact Nat.lt_trans (valueOfCode?_lt hv).1 (by decide)
    have hs := lt_of_toUTF8_lt hlt
    rw [String.toList_ofList] at hs
    exact (codes_iff_of_lt hs).1 h
  · intro h
    refine (codes_iff_of_lt fun c hc => ?_).2 h
    obtain ⟨v, hv⟩ := exists_of_forall₂ h hc
    exact Nat.lt_trans (valueOfCode?_lt (digitValue?_eq_some_iff.2 hv)).1 (by decide)

theorem decode_eq_ok_iff : decode s = .ok bs ↔ List.Forall₂ IsHexDigit s (halves bs) := by
  rw [← codes_iff, decode]
  split
  · rename_i hodd
    refine iff_of_false nofun fun h => ?_
    rw [h.length_eq, length_halves] at hodd
    omega
  · exact ⟨halves_of_decodePairs (by omega), decodePairs_halves⟩

end Digits

/-! ## Blanks and the prefix -/

/-- The second text is the first one with blanks put in anywhere. -/
inductive Spaced : List Char → List Char → Prop
  | nil : Spaced [] []
  | keep {s t : List Char} {c : Char} (h : Spaced s t) : Spaced (c :: s) (c :: t)
  | blank {s t : List Char} {c : Char} (hc : isBlank c) (h : Spaced s t) : Spaced s (c :: t)

/-- What is left of a text without its blanks and then without one `0x` in front of it. -/
inductive Bare (t : List Char) : List Char → Prop
  | plain {s : List Char} (h : t.filter (fun c => !isBlank c) = s) (hx : ¬ ['0', 'x'] <+: s) :
    Bare t s
  | prefixed {s : List Char} (h : t.filter (fun c => !isBlank c) = '0' :: 'x' :: s) : Bare t s

section Blanks

variable {s t : List Char}

theorem spaced_filter : ∀ t : List Char, Spaced (t.filter fun c => !isBlank c) t
  | [] => .nil
  | c :: t => by
    have ih := spaced_filter t
    by_cases hc : isBlank c
    · rw [List.filter_cons_of_neg (by simp [hc])]
      exact .blank hc ih
    · rw [List.filter_cons_of_pos (by simp [hc])]
      exact .keep ih

theorem Spaced.filter_eq (h : Spaced s t) (hs : ∀ c ∈ s, isBlank c = false) :
    t.filter (fun c => !isBlank c) = s := by
  induction h with
  | nil => rfl
  | keep _ ih =>
    obtain ⟨hc, hs⟩ := List.forall_mem_cons.1 hs
    rw [List.filter_cons_of_pos (by simp [hc]), ih hs]
  | blank hc _ ih => rw [List.filter_cons_of_neg (by simp [hc]), ih hs]

theorem spaced_iff (hs : ∀ c ∈ s, isBlank c = false) :
    Spaced s t ↔ t.filter (fun c => !isBlank c) = s :=
  ⟨fun h => h.filter_eq hs, fun h => h ▸ spaced_filter t⟩

theorem unspaced_eq_iff : unspaced t = s ↔ Bare t s := by
  unfold unspaced
  split
  · rename_i rest hx
    constructor
    · rintro rfl
      exact .prefixed hx
    · rintro (⟨h, hnot⟩ | h)
      · rw [← h, hx] at hnot
        exact absurd (List.prefix_append ['0', 'x'] rest) hnot
      · rw [hx] at h
        cases h
        rfl
  · rename_i hplain
    constructor
    · intro h
      refine .plain h ?_
      rintro ⟨rest, rfl⟩
      exact hplain rest h
    · rintro (⟨h, -⟩ | h)
      · exact h
      · exact absurd h (hplain s)

theorem isBlank_of_isHexDigit {c : Char} {v : Nat} (h : IsHexDigit c v) : isBlank c = false := by
  have hall : (lowerDigits ++ upperDigits).all fun c => !isBlank c := by decide
  simpa using List.all_eq_true.1 hall c h.mem

theorem not_isHexDigit_x {v : Nat} : ¬ IsHexDigit 'x' v := by
  intro h
  have hall : 'x' ∉ lowerDigits ++ upperDigits := by decide
  exact hall h.mem

/-- Digits are what is left of a text exactly if blanks were put into them, or into them behind a
prefix. -/
theorem bare_iff_spaced {vs : List Nat} (hs : List.Forall₂ IsHexDigit s vs) :
    Bare t s ↔ Spaced s t ∨ Spaced ('0' :: 'x' :: s) t := by
  have hshown : ∀ c ∈ s, isBlank c = false := by
    intro c hc
    obtain ⟨v, hv⟩ := exists_of_forall₂ hs hc
    exact isBlank_of_isHexDigit hv
  have hprefixed : ∀ c ∈ '0' :: 'x' :: s, isBlank c = false :=
    List.forall_mem_cons.2 ⟨by decide, List.forall_mem_cons.2 ⟨by decide, hshown⟩⟩
  rw [spaced_iff hshown, spaced_iff hprefixed]
  constructor
  · rintro (⟨h, -⟩ | h)
    · exact .inl h
    · exact .inr h
  · rintro (h | h)
    -- digits have no `x`, so that nothing is taken off them for a prefix
    · refine .plain h fun hx => ?_
      obtain ⟨v, hv⟩ := exists_of_forall₂ hs (hx.subset (by simp : 'x' ∈ ['0', 'x']))
      exact not_isHexDigit_x hv
    · exact .prefixed h

end Blanks

/-- A typed message is read exactly if it is the digits of some bytes, two for each, with blanks
put in anywhere, or such digits behind `0x`. For what is left of it without its blanks and without
one prefix this means an even number of digits and nothing else. So bytes are read back from
their digits in any mixture of cases, however these are spaced. -/
theorem decodeSpaced_typed (text : String) :
    (∀ bs, decodeSpaced text = .ok bs ↔ ∃ s, List.Forall₂ IsHexDigit s (halves bs)
      ∧ (Spaced s text.toList ∨ Spaced ('0' :: 'x' :: s) text.toList))
    ∧ (∃! s, Bare text.toList s)
    ∧ (∀ s, Bare text.toList s →
      (∀ bs, decodeSpaced text = .ok bs ↔ List.Forall₂ IsHexDigit s (halves bs))
      ∧ ((∃ bs, decodeSpaced text = .ok bs) ↔ s.length % 2 = 0 ∧ ∀ c ∈ s, ∃ v, IsHexDigit c v))
    ∧ ∀ bs s, s.map Char.toLower = ofBytes bs →
      Spaced s text.toList ∨ Spaced ('0' :: 'x' :: s) text.toList → decodeSpaced text = .ok bs := by
  have hread {s : List Char} (h : Bare text.toList s) (bs : Bytes) :
      decodeSpaced text = .ok bs ↔ List.Forall₂ IsHexDigit s (halves bs) := by
    rw [decodeSpaced, unspaced_eq_iff.2 h, decode_eq_ok_iff]
  have hbare : Bare text.toList (unspaced text.toList) := unspaced_eq_iff.1 rfl
  refine ⟨fun bs => ⟨fun h => ?_, ?_⟩, ⟨_, hbare, fun s hs => (unspaced_eq_iff.2 hs).symm⟩,
    fun s hs => ⟨hread hs, ?_⟩, fun bs s hcase hspaced => ?_⟩
  · have hdigits := (hread hbare bs).1 h
    exact ⟨_, hdigits, (bare_iff_spaced hdigits).1 hbare⟩
  · rintro ⟨s, hdigits, hspaced⟩
    exact (hread ((bare_iff_spaced hdigits).2 hspaced) bs).2 hdigits
  · rw [← exists_halves_iff]
    exact exists_congr (hread hs)
  · have hdigits := forall₂_ofBytes hcase
    exact (hread ((bare_iff_spaced hdigits).2 hspaced) bs).2 hdigits

/-- Blanks inside the prefix and inside a byte, and a second prefix that is not taken off. -/
theorem decodeSpaced_typed_scattered :
    Spaced ['0', 'x', 'A', 'b'] "\t0 xA\u3000b\n".toList
    ∧ decodeSpaced "\t0 xA\u3000b\n" = .ok [0xab]
    ∧ Bare "0x0x01".toList ['0', 'x', '0', '1'] ∧ ¬ ∃ bs, decodeSpaced "0x0x01" = .ok bs := by
  have htext : "\t0 xA\u3000b\n".toList = ['\t', '0', ' ', 'x', 'A', '\u3000', 'b', '\n'] := by
    decide +kernel
  have hspaced : Spaced ['0', 'x', 'A', 'b'] "\t0 xA\u3000b\n".toList := by
    rw [htext]
    exact .blank (by decide) (.keep (.blank (by decide) (.keep (.keep (.blank (by decide)
      (.keep (.blank (by decide) .nil)))))))
  have hbare : Bare "0x0x01".toList ['0', 'x', '0', '1'] := .prefixed (by decide +kernel)
  obtain ⟨-, -, -, hread⟩ := decodeSpaced_typed "\t0 xA\u3000b\n"
  obtain ⟨-, -, hdigits, -⟩ := decodeSpaced_typed "0x0x01"
  refine ⟨hspaced, hread [0xab] ['A', 'b'] (by decide) (.inr hspaced), hbare, fun h => ?_⟩
  obtain ⟨-, hall⟩ := (hdigits _ hbare).2.1 h
  obtain ⟨v, hv⟩ := hall 'x' (by simp)
  exact not_isHexDigit_x hv

end MeterLink.Hex

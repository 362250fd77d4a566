import MeterLink.Proofs.CatalogueRows
import MeterLink.Proofs.FieldRoundTrip
import MeterLink.Proofs.ObjectNotation

/-!
# References to objects

What is printed for an identifier is in one of its notations (`Printed.spelled`), so it is read
back, with any blanks around it. What is read as an identifier is made of the characters of the
notations and of blanks, and no name of the catalogue is (`parse?_name`), so an identifier is never
taken for a name.
-/

namespace MeterLink

namespace ObjectId

/-- The characters that are not blank and can stand in the text of an identifier. -/
def notationChars : List Char :=
  '+' :: '.' :: 'x' :: 'X' :: (lowerDigits ++ upperDigits)

theorem Spelled.forall_mem {s : List Char} {n : Nat} (h : Spelled Signed s n) {p : Char → Prop}
    [DecidablePred p] (hp : notationChars.all fun c => p c) : ∀ c ∈ s, p c := by
  have hall {c : Char} (hc : c ∈ notationChars) : p c :=
    of_decide_eq_true (List.all_eq_true.1 hp c hc)
  have hdigits : (lowerDigits ++ upperDigits).all fun c => p c :=
    List.all_eq_true.2 fun c hc => decide_eq_true (hall (by simp [notationChars, hc]))
  have hplus : p '+' := hall (by decide)
  have hpoint : p '.' := hall (by decide)
  have hzero : p '0' := hall (by decide)
  have hx : p 'x' := hall (by decide)
  have hX : p 'X' := hall (by decide)
  have hrow {limit : Nat} {r : List Char} {m : Nat} (hr : Signed limit r m) : ∀ c ∈ r, p c :=
    hr.forall_mem hplus hdigits
  cases h with
  | plain h => exact hrow h
  | lower h => exact List.forall_mem_cons.2 ⟨hzero, List.forall_mem_cons.2 ⟨hx, hrow h⟩⟩
  | upper h => exact List.forall_mem_cons.2 ⟨hzero, List.forall_mem_cons.2 ⟨hX, hrow h⟩⟩
  | triplet ha hb hc =>
    simp only [List.forall_mem_append, List.forall_mem_cons]
    exact ⟨hrow ha, hpoint, hrow hb, hpoint, hrow hc⟩

theorem parse?_surrounded {before s after : List Char} {n : Nat} (h : Spelled Signed s n)
    (hbefore : ∀ c ∈ before, isBlank c) (hafter : ∀ c ∈ after, isBlank c) :
    parse? (String.ofList (before ++ s ++ after)) = some (ofNat n) := by
  rw [parse?, String.toList_ofList,
    trimBlank_surrounded hbefore (h.forall_mem (by decide)) hafter, ofTrimmed?_of_spelled h]

theorem char_of_parse? {s : String} {id : ObjectId} (h : parse? s = some id) {c : Char}
    (hc : c ∈ s.toList) : c.toNat < 103 ∨ 119 < c.toNat := by
  rcases isBlank_or_mem_trimBlank hc with hblank | hmem
  · have hcode : ∀ n < 120, 103 ≤ n → isBlank (Char.ofNat n) = false := by decide
    by_contra hbetween
    have hnot := hcode c.toNat (by omega) (by omega)
    rw [Char.ofNat_toNat, hblank] at hnot
    cases hnot
  · exact (ofTrimmed?_eq_some_iff.1 h).forall_mem
      (p := fun c => c.toNat < 103 ∨ 119 < c.toNat) (by decide) c hmem

/-- A name has a letter that no identifier has. -/
theorem parse?_name {e : CatalogueEntry} (h : e ∈ catalogue) : parse? e.name = none := by
  obtain ⟨b, hb, hlo, hhi⟩ := catalogue_names.2 _ (List.mem_map_of_mem h)
  obtain ⟨c, hc, hcode⟩ := exists_char_of_mem_toUTF8 hb (by omega)
  rcases hparse : parse? e.name with _ | id
  · rfl
  · have hchar := char_of_parse? hparse hc
    omega

/-! ## Printed forms -/

/-- The ways in which an identifier is printed; of its digits each may be in either case. -/
inductive Printed (id : ObjectId) : List Char → Prop
  | digits {s : List Char} (h : s.map Char.toLower = id.text.toList) : Printed id s
  | lower {s : List Char} (h : s.map Char.toLower = id.text.toList) : Printed id ('0' :: 'x' :: s)
  | upper {s : List Char} (h : s.map Char.toLower = id.text.toList) : Printed id ('0' :: 'X' :: s)
  | triplet : Printed id id.triplet.toList

theorem ofBigEndian_bytes (id : ObjectId) : ofBigEndian id.bytes = id.toNat := by
  rw [bytes, ofBigEndian_bigEndian]
  exact Nat.mod_eq_of_lt id.code.isLt

theorem digits_of_toLower {id : ObjectId} {s : List Char}
    (h : s.map Char.toLower = id.text.toList) : Digits 6 s id.toNat := by
  obtain ⟨b₀, b₁, b₂, hbytes, -⟩ := id.bytes_eq
  rw [text, String.toList_ofList, digits] at h
  have hlen := congrArg List.length h
  rw [hbytes, List.length_map] at hlen
  rw [← ofBigEndian_bytes]
  exact ⟨hexRow_ofBytes (by simp [hbytes]) h, Nat.le_of_eq hlen⟩

theorem digits_upperOfByte (b : UInt8) : Digits 2 (Hex.upperOfByte b) b.toNat := by
  have hdigit : ∀ v < 16, (Hex.upperDigit v).toLower = Hex.digit v := by decide
  have hb := b.toNat_lt
  have hlower : (Hex.upperOfByte b).map Char.toLower = Hex.ofBytes [b] := by
    simp only [Hex.upperOfByte, List.map_cons, List.map_nil, hdigit (b.toNat / 16) (by omega),
      hdigit (b.toNat % 16) (by omega)]
    rfl
  exact ⟨hexRow_ofBytes (List.cons_ne_nil b []) hlower, Nat.le_refl 2⟩

theorem Printed.spelled {id : ObjectId} {s : List Char} (h : Printed id s) :
    Spelled Digits s id.toNat := by
  cases h with
  | digits h => exact .plain (digits_of_toLower h)
  | lower h => exact .lower (digits_of_toLower h)
  | upper h => exact .upper (digits_of_toLower h)
  | triplet =>
    obtain ⟨b₀, b₁, b₂, hbytes, -⟩ := id.bytes_eq
    have htext : id.triplet.toList
        = Hex.upperOfByte b₀ ++ '.' :: (Hex.upperOfByte b₁ ++ '.' :: Hex.upperOfByte b₂) := by
      rw [ObjectId.triplet, hbytes, String.toList_intercalate, ← intercalate_three]
      simp only [List.map_cons, List.map_nil, String.toList_ofList]
      rfl
    have hvalue : id.toNat = 65536 * b₀.toNat + 256 * b₁.toNat + b₂.toNat := by
      rw [← ofBigEndian_bytes, hbytes]
      simp only [ofBigEndian, List.reverse_cons, List.reverse_nil, List.nil_append,
        List.cons_append, ofLittleEndian]
      omega
    rw [htext, hvalue]
    exact .triplet (digits_upperOfByte b₀) (digits_upperOfByte b₁) (digits_upperOfByte b₂)

theorem parse?_printed {id : ObjectId} {before s after : List Char} (h : Printed id s)
    (hbefore : ∀ c ∈ before, isBlank c) (hafter : ∀ c ∈ after, isBlank c) :
    parse? (String.ofList (before ++ s ++ after)) = some id := by
  rw [parse?_surrounded (spelled_digits_iff.1 h.spelled).1 hbefore hafter, ofNat_toNat]

/-! ## References -/

theorem named?_of_parse? {s : String} {id : ObjectId} (h : parse? s = some id) :
    named? s = none := by
  rcases hnamed : named? s with _ | e
  · rfl
  · obtain ⟨hmem, rfl⟩ := named?_eq_some_iff.1 hnamed
    rw [parse?_name hmem] at h
    cases h

theorem parseReference?_of_parse? {s : String} {id : ObjectId} (h : parse? s = some id) :
    parseReference? s = some id := by
  rw [parseReference?, named?_of_parse? h]
  exact h

theorem parse?_text (id : ObjectId) : parse? id.text = some id := by
  have hlower : id.text.toList.map Char.toLower = id.text.toList := by
    rw [text, String.toList_ofList, digits, map_toLower_ofBytes]
  have hparse := @parse?_printed id [] _ [] (.digits hlower) nofun nofun
  rwa [List.nil_append, List.append_nil, String.ofList_toList] at hparse

theorem parseReference?_name (id : ObjectId) : parseReference? id.name = some id := by
  rw [name]
  rcases h : id.entry? with _ | e
  · exact parseReference?_of_parse? (parse?_text id)
  · obtain ⟨hmem, rfl⟩ := entry?_eq_some_iff.1 h
    rw [Option.map_some, Option.getD_some, parseReference?,
      named?_eq_some_iff.2 ⟨hmem, rfl⟩]

/-- Each printed form of an identifier is read back as this identifier, whatever blanks are around
it, and so is the name of an object as a reference to it. A name is that of the one row that has
it, which is also the row of its identifier. No name is read as an identifier, so that a
reference which is an identifier is that identifier. -/
theorem references_read_back :
    (∀ (id : ObjectId) (before s after : List Char), Printed id s → (∀ c ∈ before, isBlank c) →
      (∀ c ∈ after, isBlank c) → parse? (String.ofList (before ++ s ++ after)) = some id)
    ∧ (∀ id : ObjectId, parseReference? id.name = some id)
    ∧ (∀ (s : String) (e : CatalogueEntry), named? s = some e ↔ e ∈ catalogue ∧ e.name = s)
    ∧ (∀ (s : String) (e : CatalogueEntry), named? s = some e → e.id.entry? = some e)
    ∧ ∀ (s : String) (id : ObjectId), parse? s = some id →
      named? s = none ∧ parseReference? s = some id := by
  refine ⟨fun id before s after => parse?_printed, parseReference?_name,
    fun s e => named?_eq_some_iff, ?_, ?_⟩
  · intro s e h
    exact entry?_eq_some_iff.2 ⟨(named?_eq_some_iff.1 h).1, rfl⟩
  · intro s id h
    exact ⟨named?_of_parse? h, parseReference?_of_parse? h⟩

/-- Digits of both cases behind a prefix, between two blanks, and a name. -/
theorem references_read_back_blanks :
    parse? (String.ofList (['\u3000'] ++ '0' :: 'X' :: "00aBcD".toList ++ ['\n']))
      = some (ofNat 0x00abcd)
    ∧ named? "serial" = some ⟨ofNat 0x600100, "serial", .ascii .remainder⟩
    ∧ entry? (ofNat 0x600100) = some ⟨ofNat 0x600100, "serial", .ascii .remainder⟩ := by
  obtain ⟨hprinted, -, hnamed, hentry, -⟩ := references_read_back
  have hserial := (hnamed "serial" ⟨ofNat 0x600100, "serial", .ascii .remainder⟩).2
    ⟨by decide +kernel, rfl⟩
  have hspace : ∀ c ∈ ['\u3000'], isBlank c := List.all_eq_true.1 (by decide)
  have hnewline : ∀ c ∈ ['\n'], isBlank c := List.all_eq_true.1 (by decide)
  exact ⟨hprinted _ _ _ _ (.upper (by decide +kernel)) hspace hnewline, hserial,
    hentry _ _ hserial⟩

end ObjectId

end MeterLink

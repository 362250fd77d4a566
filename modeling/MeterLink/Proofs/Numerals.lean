import Mathlib.Data.List.DropRight
import Mathlib.Data.List.Forall2
import Mathlib.Data.Nat.Digits.Lemmas
import MeterLink.Text.Blank
import MeterLink.Text.Numeral

/-!
# Rows of digits

A row of digits is read to the number that its positions give it, in base ten
(`getD_decimalNumeral?`) and in base sixteen, where the digits above nine have two cases
(`hexNumeral?_eq_some_iff`). The digits of bytes, in any mixture of cases, are a row for the number
of those bytes (`hexRow_ofBytes`).

In UTF-8 the characters below 128 are one byte each (`toList_toUTF8_of_lt`), and no other character
has a byte below 128 (`toNat_of_mem_utf8EncodeChar`).

What a person types is taken apart by blanks and by separators: blanks around a text that has none
do not count (`trimBlank_surrounded`), and the pieces of a text are those of the library's
`splitOn` (`pieces_eq_splitOn`).
-/

namespace MeterLink

theorem mapM_eq_some_iff {α β : Type} {f : α → Option β} : ∀ {s : List α} {ds : List β},
    s.mapM f = some ds ↔ List.Forall₂ (fun c d => f c = some d) s ds
  | [], ds => by
    rw [List.mapM_nil, List.forall₂_nil_left_iff]
    exact ⟨fun h => (Option.some.inj h).symm, fun h => congrArg some h.symm⟩
  | c :: s, ds => by
    rw [List.mapM_cons, List.forall₂_cons_left_iff]
    constructor
    · intro h
      obtain ⟨d, hd, h⟩ := Option.bind_eq_some_iff.1 h
      obtain ⟨es, hes, h⟩ := Option.bind_eq_some_iff.1 h
      exact ⟨d, es, hd, mapM_eq_some_iff.1 hes, (Option.some.inj h).symm⟩
    · rintro ⟨d, es, hd, hes, rfl⟩
      exact Option.bind_eq_some_iff.2
        ⟨d, hd, Option.bind_eq_some_iff.2 ⟨es, mapM_eq_some_iff.2 hes, rfl⟩⟩

theorem ofDigits_eq (base : Nat) (ds : List Nat) :
    ofDigits base ds = Nat.ofDigits base ds.reverse := by
  rw [ofDigits, Nat.ofDigits_eq_foldr, List.foldr_reverse]
  congr 1
  funext acc d
  exact Nat.add_comm _ _

/-! ## Base ten -/

theorem decimalDigit?_eq (c : Char) :
    decimalDigit? c = if c.isDigit then some (c.toNat - 48) else none := by
  have hiff : ('0' ≤ c ∧ c ≤ '9') ↔ c.isDigit = true := by
    rw [Char.isDigit_iff_toNat]
    exact Iff.rfl
  rw [decimalDigit?]
  simp only [hiff]

theorem isDecimalDigit_eq (c : Char) : isDecimalDigit c = c.isDigit := by
  rw [isDecimalDigit, decimalDigit?_eq]
  cases c.isDigit <;> rfl

/-- The value of a row of digits, which is zero if there are none. -/
theorem getD_decimalNumeral? {s : List Char} (h : ∀ c ∈ s, c.isDigit) :
    (decimalNumeral? s).getD 0 = Nat.ofDigitChars 10 s 0 := by
  cases s with
  | nil => rfl
  | cons c s =>
    have hdigits : (c :: s).mapM decimalDigit? = some ((c :: s).map fun c => c.toNat - 48) := by
      rw [mapM_eq_some_iff, List.forall₂_map_right_iff, List.forall₂_same]
      intro d hd
      rw [decimalDigit?_eq, if_pos (h d hd)]
    rw [decimalNumeral?, List.isEmpty_cons, if_neg Bool.false_ne_true, hdigits, Option.map_some,
      Option.getD_some, ofDigits, List.foldl_map]
    rfl

theorem isDigit_of_mem_toDigits {n : Nat} {c : Char} (h : c ∈ Nat.toDigits 10 n) : c.isDigit :=
  Nat.isDigit_of_mem_toDigits (by decide) (by decide) h

theorem isDigit_of_mem_paddedDecimal {width n : Nat} {c : Char} (h : c ∈ paddedDecimal width n) :
    c.isDigit := by
  rcases List.mem_append.1 h with hzero | hdigit
  · rw [List.eq_of_mem_replicate hzero]
    decide
  · exact isDigit_of_mem_toDigits hdigit

theorem ofDigitChars_paddedDecimal (width n : Nat) :
    Nat.ofDigitChars 10 (paddedDecimal width n) 0 = n := by
  rw [paddedDecimal, Nat.ofDigitChars_append, Nat.ofDigitChars_replicate_zero, Nat.mul_zero,
    Nat.ofDigitChars_ten_toDigits]

/-! ## Base sixteen -/

/-- The digits in the order of their values. -/
def lowerDigits : List Char :=
  ['0', '1', '2', '3', '4', '5', '6', '7', '8', '9', 'a', 'b', 'c', 'd', 'e', 'f']

/-- The digits in the order of their values, those above nine in upper case. -/
def upperDigits : List Char :=
  ['0', '1', '2', '3', '4', '5', '6', '7', '8', '9', 'A', 'B', 'C', 'D', 'E', 'F']

/-- The character is the digit for `v`, in either case. -/
def IsHexDigit (c : Char) (v : Nat) : Prop :=
  lowerDigits[v]? = some c ∨ upperDigits[v]? = some c

/-- A row of digits, at least one, that stands for `n`. -/
def HexRow (s : List Char) (n : Nat) : Prop :=
  s ≠ [] ∧ ∃ ds, List.Forall₂ IsHexDigit s ds ∧ n = Nat.ofDigits 16 ds.reverse

theorem IsHexDigit.lt {c : Char} {v : Nat} (h : IsHexDigit c v) : v < 16 := by
  rcases h with h | h
  · exact (List.getElem?_eq_some_iff.1 h).1
  · exact (List.getElem?_eq_some_iff.1 h).1

theorem IsHexDigit.mem {c : Char} {v : Nat} (h : IsHexDigit c v) :
    c ∈ lowerDigits ++ upperDigits :=
  List.mem_append.2 (h.imp List.mem_of_getElem? List.mem_of_getElem?)

theorem valueOfCode?_lt {n v : Nat} (h : Hex.valueOfCode? n = some v) : n < 103 ∧ v < 16 := by
  unfold Hex.valueOfCode? at h
  split_ifs at h
  all_goals
    cases h
    omega

theorem digitValue?_eq_some_iff {c : Char} {v : Nat} :
    Hex.digitValue? c = some v ↔ IsHexDigit c v := by
  constructor
  · intro h
    have hall : ∀ n < 103, ∀ v ∈ Hex.valueOfCode? n,
        lowerDigits[v]? = some (Char.ofNat n) ∨ upperDigits[v]? = some (Char.ofNat n) := by decide
    have hdigit := hall c.toNat (valueOfCode?_lt h).1 v h
    rwa [Char.ofNat_toNat] at hdigit
  · intro h
    have hall : ∀ v < 16, lowerDigits[v]?.bind Hex.digitValue? = some v
        ∧ upperDigits[v]?.bind Hex.digitValue? = some v := by decide
    obtain ⟨hlower, hupper⟩ := hall v h.lt
    rcases h with h | h
    · rwa [h, Option.bind_some] at hlower
    · rwa [h, Option.bind_some] at hupper

theorem hexNumeral?_eq_some_iff {s : List Char} {n : Nat} :
    hexNumeral? s = some n ↔ HexRow s n := by
  cases s with
  | nil => exact iff_of_false nofun fun h => h.1 rfl
  | cons c s =>
    rw [hexNumeral?, List.isEmpty_cons, if_neg Bool.false_ne_true, Option.map_eq_some_iff]
    simp only [mapM_eq_some_iff, digitValue?_eq_some_iff, ofDigits_eq, HexRow, ne_eq,
      List.cons_ne_nil, not_false_eq_true, true_and, @eq_comm Nat _ n]

theorem exists_of_forall₂ {α β : Type} {R : α → β → Prop} {l : List α} {m : List β}
    (h : List.Forall₂ R l m) {a : α} (ha : a ∈ l) : ∃ b, R a b := by
  induction h with
  | nil => cases ha
  | cons hab _ ih =>
    rcases List.mem_cons.1 ha with rfl | ha
    · exact ⟨_, hab⟩
    · exact ih ha

/-- The characters of a row are digits, so what is true of all digits is true of them. -/
theorem HexRow.forall_mem {s : List Char} {n : Nat} (h : HexRow s n) {p : Char → Prop}
    [DecidablePred p] (hp : (lowerDigits ++ upperDigits).all fun c => p c) : ∀ c ∈ s, p c := by
  intro c hc
  obtain ⟨-, ds, hds, -⟩ := h
  obtain ⟨v, hv⟩ := exists_of_forall₂ hds hc
  exact of_decide_eq_true (List.all_eq_true.1 hp c hv.mem)

theorem HexRow.lt {s : List Char} {n k : Nat} (h : HexRow s n) (hlen : s.length ≤ k) :
    n < 1 <<< (4 * k) := by
  obtain ⟨-, ds, hds, rfl⟩ := h
  have hlt : ∀ d ∈ ds.reverse, d < 16 := by
    intro d hd
    obtain ⟨c, hc⟩ := exists_of_forall₂ (List.Forall₂.flip hds) (List.mem_reverse.1 hd)
    exact IsHexDigit.lt hc
  have hbound := Nat.ofDigits_lt_base_pow_length (by decide) hlt
  rw [List.length_reverse, ← hds.length_eq] at hbound
  rw [Nat.one_shiftLeft, Nat.pow_mul]
  exact Nat.lt_of_lt_of_le hbound (Nat.pow_le_pow_right (by decide) hlen)

/-! ### Digits of bytes -/

/-- The values of the two digits of each byte. -/
def halves (bs : Bytes) : List Nat :=
  bs.flatMap fun b => [b.toNat / 16, b.toNat % 16]

theorem halves_cons (b : UInt8) (bs : Bytes) :
    halves (b :: bs) = b.toNat / 16 :: b.toNat % 16 :: halves bs := rfl

theorem length_halves (bs : Bytes) : (halves bs).length = 2 * bs.length := by
  induction bs with
  | nil => rfl
  | cons b bs ih =>
    rw [halves_cons, List.length_cons, List.length_cons, ih, List.length_cons]
    omega

theorem halves_ofNat {h l : Nat} (hh : h < 16) (hl : l < 16) (bs : Bytes) :
    halves (UInt8.ofNat (16 * h + l) :: bs) = h :: l :: halves bs := by
  have hb : (UInt8.ofNat (16 * h + l)).toNat = 16 * h + l := by
    rw [UInt8.toNat_ofNat']
    omega
  rw [halves_cons, hb, show (16 * h + l) / 16 = h by omega, show (16 * h + l) % 16 = l by omega]

theorem ofDigits_halves (bs : Bytes) : Nat.ofDigits 16 (halves bs).reverse = ofBigEndian bs := by
  rw [halves, List.reverse_flatMap, ofBigEndian]
  generalize bs.reverse = rev
  induction rev with
  | nil => rfl
  | cons b rev ih =>
    simp only [List.flatMap_cons, Function.comp_apply, List.reverse_cons, List.reverse_nil,
      List.nil_append, List.cons_append, Nat.ofDigits_cons, ofLittleEndian] at ih ⊢
    rw [ih]
    omega

theorem isHexDigit_of_toLower {c : Char} {v : Nat} (hv : v < 16)
    (h : c.toLower = Hex.digit v) : IsHexDigit c v := by
  have hlower : ∀ v < 16, lowerDigits[v]? = some (Hex.digit v) := by decide
  have hupper : ∀ n < 91, ∀ v < 16, 65 ≤ n → (Char.ofNat n).toLower = Hex.digit v →
      upperDigits[v]? = some (Char.ofNat n) := by decide
  by_cases hcase : c.val ≥ 'A'.val ∧ c.val ≤ 'Z'.val
  · have hlo : 65 ≤ c.toNat := UInt32.le_iff_toNat_le.1 hcase.1
    have hhi : c.toNat ≤ 90 := UInt32.le_iff_toNat_le.1 hcase.2
    have hdigit := hupper c.toNat (Nat.lt_succ_of_le hhi) v hv hlo
    rw [Char.ofNat_toNat] at hdigit
    exact .inr (hdigit h)
  · have hsame : c.toLower = c := dif_neg hcase
    rw [← hsame, h]
    exact .inl (hlower v hv)

theorem map_toLower_ofBytes (bs : Bytes) : (Hex.ofBytes bs).map Char.toLower = Hex.ofBytes bs := by
  have hdigit : ∀ v < 16, (Hex.digit v).toLower = Hex.digit v := by decide
  have hbyte (b : UInt8) : (Hex.ofByte b).map Char.toLower = Hex.ofByte b := by
    have hb := b.toNat_lt
    simp only [Hex.ofByte, List.map_cons, List.map_nil, hdigit (b.toNat / 16) (by omega),
      hdigit (b.toNat % 16) (by omega)]
  simp only [Hex.ofBytes, List.map_flatMap, hbyte]

/-- The digits of bytes, each in either case. -/
theorem forall₂_ofBytes {s : List Char} {bs : Bytes} (h : s.map Char.toLower = Hex.ofBytes bs) :
    List.Forall₂ IsHexDigit s (halves bs) := by
  have hhalves : ∀ v ∈ halves bs, v < 16 := by
    intro v hv
    obtain ⟨b, -, hb⟩ := List.mem_flatMap.1 hv
    have hlt := b.toNat_lt
    rcases List.mem_pair.1 hb with rfl | rfl
    · omega
    · omega
  have hdigits : Hex.ofBytes bs = (halves bs).map Hex.digit := by
    rw [halves, List.map_flatMap]
    rfl
  have hpairs : List.Forall₂ (fun c v => c.toLower = Hex.digit v) s (halves bs) := by
    rw [← List.forall₂_map_left_iff (R := fun c v => c = Hex.digit v), h, hdigits,
      List.forall₂_map_left_iff, List.forall₂_same]
    exact fun _ _ => rfl
  refine List.forall₂_iff_zip.2 ⟨hpairs.length_eq, fun {c v} hmem => ?_⟩
  exact isHexDigit_of_toLower (hhalves v (List.of_mem_zip hmem).2)
    ((List.forall₂_iff_zip.1 hpairs).2 hmem)

/-- The digits of bytes, each in either case, stand for the number of the bytes. -/
theorem hexRow_ofBytes {s : List Char} {bs : Bytes} (hne : bs ≠ [])
    (h : s.map Char.toLower = Hex.ofBytes bs) : HexRow s (ofBigEndian bs) := by
  refine ⟨?_, halves bs, forall₂_ofBytes h, (ofDigits_halves bs).symm⟩
  rintro rfl
  obtain ⟨b, bs, rfl⟩ := List.exists_cons_of_ne_nil hne
  cases h

/-! ## Characters as bytes -/

theorem toList_loop (bs : ByteArray) (i : Nat) (r : List UInt8) :
    ByteArray.toList.loop bs i r = r.reverse ++ bs.data.toList.drop i := by
  fun_induction ByteArray.toList.loop bs i r with
  | case1 i r h ih =>
    have hi : i < bs.data.toList.length := h
    have hget : bs.get! i = bs.data.toList[i] := getElem!_pos bs.data i h
    rw [ih, List.reverse_cons, List.append_assoc, List.singleton_append, hget,
      ← List.drop_eq_getElem_cons hi]
  | case2 i r h =>
    rw [List.drop_eq_nil_of_le (Nat.le_of_not_lt h), List.append_nil]

theorem toList_data_toUTF8 (s : String) :
    s.toUTF8.data.toList = s.toList.flatMap String.utf8EncodeChar := by
  rw [String.toUTF8, ← String.utf8Encode_toList, List.utf8Encode, List.toList_data_toByteArray]

theorem toList_toUTF8 (s : String) : s.toUTF8.toList = s.toList.flatMap String.utf8EncodeChar := by
  rw [ByteArray.toList, toList_loop, List.reverse_nil, List.nil_append, List.drop_zero,
    toList_data_toUTF8]

/-- A byte below 128 in the UTF-8 form of a character is the character itself. -/
theorem toNat_of_mem_utf8EncodeChar {c : Char} {b : UInt8} (h : b ∈ String.utf8EncodeChar c)
    (hb : b.toNat < 128) : c.toNat = b.toNat := by
  have hcode : c.val.toNat = c.toNat := rfl
  unfold String.utf8EncodeChar at h
  dsimp only at h
  split at h
  · rw [List.mem_singleton.1 h, UInt8.toNat_ofNat']
    omega
  -- a longer form has only bytes from 128 on
  · suffices hall : ∀ b : UInt8, b ∈ _ → 128 ≤ b.toNat from absurd hb (Nat.not_lt.2 (hall b h))
    split
    · simp only [List.forall_mem_cons, UInt8.toNat_ofNat']
      exact ⟨by omega, by omega, nofun⟩
    split
    · simp only [List.forall_mem_cons, UInt8.toNat_ofNat']
      exact ⟨by omega, by omega, by omega, nofun⟩
    · simp only [List.forall_mem_cons, UInt8.toNat_ofNat']
      exact ⟨by omega, by omega, by omega, by omega, nofun⟩

theorem exists_char_of_mem_toUTF8 {s : String} {b : UInt8} (h : b ∈ s.toUTF8.data.toList)
    (hb : b.toNat < 128) : ∃ c ∈ s.toList, c.toNat = b.toNat := by
  rw [toList_data_toUTF8, List.mem_flatMap] at h
  obtain ⟨c, hc, hbc⟩ := h
  exact ⟨c, hc, toNat_of_mem_utf8EncodeChar hbc hb⟩

theorem utf8EncodeChar_of_lt {c : Char} (h : c.toNat < 128) :
    String.utf8EncodeChar c = [UInt8.ofNat c.toNat] := by
  have hcode : c.val.toNat ≤ 0x7f := Nat.le_of_lt_succ h
  simp only [String.utf8EncodeChar, hcode, if_true]
  rfl

theorem lt_of_toUTF8_lt {s : String} (h : ∀ b ∈ s.toUTF8.toList, b.toNat < 128) :
    ∀ c ∈ s.toList, c.toNat < 128 := by
  intro c hc
  have hne : String.utf8EncodeChar c ≠ [] := by
    rw [← List.length_pos_iff, String.length_utf8EncodeChar]
    exact c.utf8Size_pos
  obtain ⟨b, hb⟩ := List.exists_mem_of_ne_nil _ hne
  rw [toList_toUTF8] at h
  have hlt := h b (List.mem_flatMap.2 ⟨c, hc, hb⟩)
  rwa [toNat_of_mem_utf8EncodeChar hb hlt]

theorem toList_toUTF8_of_lt {s : String} (h : ∀ c ∈ s.toList, c.toNat < 128) :
    s.toUTF8.toList = s.toList.map fun c => UInt8.ofNat c.toNat := by
  rw [toList_toUTF8, List.flatMap_congr fun c hc => utf8EncodeChar_of_lt (h c hc),
    List.map_eq_flatMap]

/-! ## Blanks and separators -/

theorem trimBlank_surrounded {before s after : List Char} (hbefore : ∀ c ∈ before, isBlank c)
    (hs : ∀ c ∈ s, isBlank c = false) (hafter : ∀ c ∈ after, isBlank c) :
    trimBlank (before ++ s ++ after) = s := by
  have hself {l : List Char} (hl : ∀ c ∈ l, isBlank c = false) : l.dropWhile isBlank = l := by
    cases l with
    | nil => rfl
    | cons c l => exact List.dropWhile_cons_of_neg (by simp [hl])
  have hfront : (before ++ (s ++ after)).dropWhile isBlank = (s ++ after).dropWhile isBlank :=
    List.dropWhile_append_of_pos hbefore
  rw [trimBlank, List.append_assoc, hfront]
  cases s with
  | nil =>
    rw [List.nil_append, List.dropWhile_eq_nil_iff.2 hafter]
    rfl
  | cons c s =>
    have hback : ∀ c ∈ after.reverse, isBlank c := fun c hc => hafter c (List.mem_reverse.1 hc)
    have hrev : ∀ d ∈ (c :: s).reverse, isBlank d = false :=
      fun d hd => hs d (List.mem_reverse.1 hd)
    rw [List.cons_append, List.dropWhile_cons_of_neg (by simp [hs]), ← List.cons_append,
      List.reverse_append, List.dropWhile_append_of_pos hback, hself hrev, List.reverse_reverse]

theorem trimBlank_eq_self {s : List Char} (hs : ∀ c ∈ s, isBlank c = false) : trimBlank s = s := by
  have htrim := @trimBlank_surrounded [] s [] nofun hs nofun
  rwa [List.nil_append, List.append_nil] at htrim

theorem isBlank_or_mem_trimBlank {s : List Char} {c : Char} (h : c ∈ s) :
    isBlank c ∨ c ∈ trimBlank s := by
  have hdrop {l : List Char} (hl : c ∈ l) : isBlank c ∨ c ∈ l.dropWhile isBlank := by
    rw [← List.takeWhile_append_dropWhile (p := isBlank) (l := l)] at hl
    exact (List.mem_append.1 hl).imp_left List.mem_takeWhile_imp
  rcases hdrop h with hblank | hfront
  · exact .inl hblank
  · exact (hdrop (List.mem_reverse.2 hfront)).imp_right List.mem_reverse.2

theorem isBlank_of_isDigit {c : Char} (h : c.isDigit) : isBlank c = false := by
  have hall : ∀ n < 58, 48 ≤ n → isBlank (Char.ofNat n) = false := by decide
  obtain ⟨hlo, hhi⟩ := Char.isDigit_iff_toNat.1 h
  have hc := hall c.toNat (Nat.lt_succ_of_le hhi) hlo
  rwa [Char.ofNat_toNat] at hc

theorem pieces_eq_splitOn (sep : Char) : ∀ s : List Char, pieces sep s = s.splitOn sep
  | [] => rfl
  | c :: s => by
    rw [pieces, pieces_eq_splitOn sep s, List.splitOn_cons_eq_if_modifyHead]
    rcases hrest : s.splitOn sep with _ | ⟨p, ps⟩
    · exact absurd hrest (List.splitOn_ne_nil sep s)
    · simp only [beq_iff_eq, List.modifyHead_cons]

end MeterLink

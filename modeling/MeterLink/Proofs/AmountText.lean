import Mathlib.Tactic.SplitIfs
import MeterLink.Amount
import MeterLink.Proofs.Numerals
import MeterLink.Proofs.PaddedText

/-!
# Amounts in writing

An amount is read exactly from an optional sign, digits and at most one point with at most five
places, if it can be held at all (`parse_eq_ok_iff`). The number is put together in steps that are
each checked, but no step refuses a number that could be held in the end
(`readMagnitude_eq_ok_iff`). The text of an amount is of that form (`isAmount_digits`), so it is
read back, unless it is that of the least amount, which has no positive counterpart.
-/

namespace MeterLink.Amount

/-- Units of the given digits before and after the point. -/
def unitsOf (whole frac : List Char) : Nat :=
  Nat.ofDigitChars 10 whole 0 * 100000
    + Nat.ofDigitChars 10 (frac ++ List.replicate (5 - frac.length) '0') 0

theorem unitsOf_nil (whole : List Char) :
    unitsOf whole [] = Nat.ofDigitChars 10 whole 0 * 100000 := by
  rw [unitsOf, List.nil_append, Nat.ofDigitChars_replicate_zero, Nat.mul_zero, Nat.add_zero]

/-- Digits with at most one point, that come to `n` units. -/
inductive IsMagnitude : List Char → Nat → Prop
  | whole {w : List Char} (digits : ∀ c ∈ w, c.isDigit) (ne : w ≠ []) :
    IsMagnitude w (unitsOf w [])
  | pointed {w f : List Char} (digits : ∀ c ∈ w ++ f, c.isDigit) (ne : w ++ f ≠ [])
    (le : f.length ≤ 5) : IsMagnitude (w ++ '.' :: f) (unitsOf w f)

/-- An optional sign and a magnitude, that come to `n` units. -/
inductive IsAmount : List Char → Int → Prop
  | plain {s : List Char} {n : Nat} (h : IsMagnitude s n) : IsAmount s n
  | plus {s : List Char} {n : Nat} (h : IsMagnitude s n) : IsAmount ('+' :: s) n
  | minus {s : List Char} {n : Nat} (h : IsMagnitude s n) : IsAmount ('-' :: s) (-n)

/-! ## Reading -/

theorem bounded_bind_eq_ok_iff {n m : Nat} {k : Nat → Except AmountFault Nat} :
    (bounded n >>= k) = .ok m ↔ n < 0x8000000000000000 ∧ k n = .ok m := by
  rw [bounded]
  split
  · rename_i h
    exact ⟨fun hk => ⟨h, hk⟩, fun hk => hk.2⟩
  · rename_i h
    exact iff_of_false nofun fun hk => h hk.1

theorem bounded_eq_ok_iff {n m : Nat} : bounded n = .ok m ↔ n < 0x8000000000000000 ∧ m = n := by
  rw [bounded]
  split
  · rename_i h
    simp [h, eq_comm]
  · rename_i h
    simp [h]

theorem splitPoint_of_notMem {s : List Char} (h : '.' ∉ s) : splitPoint s = (s, []) := by
  have hall : ∀ c ∈ s, (decide (c ≠ '.')) = true := by
    intro c hc
    simpa using fun heq : c = '.' => h (heq ▸ hc)
  rw [splitPoint, List.takeWhile_eq_self_iff.2 hall, List.dropWhile_eq_nil_iff.2 hall]
  rfl

theorem splitPoint_pointed {w f : List Char} (h : '.' ∉ w) :
    splitPoint (w ++ '.' :: f) = (w, f) := by
  have hall : ∀ c ∈ w, (decide (c ≠ '.')) = true := by
    intro c hc
    simpa using fun heq : c = '.' => h (heq ▸ hc)
  rw [splitPoint, List.takeWhile_append_of_pos hall, List.dropWhile_append_of_pos hall,
    List.takeWhile_cons_of_neg (by decide), List.dropWhile_cons_of_neg (by decide), List.append_nil]
  rfl

theorem notMem_point_of_digits {s : List Char} (h : ∀ c ∈ s, c.isDigit) : '.' ∉ s :=
  fun hmem => absurd (h _ hmem) (by decide)

/-- The checks on the way hold whenever the last one does. -/
theorem readMagnitude_split {s w f : List Char} {n : Nat} (h : splitPoint s = (w, f)) :
    readMagnitude s = .ok n ↔ w ++ f ≠ [] ∧ (∀ c ∈ w ++ f, c.isDigit) ∧ f.length ≤ 5
      ∧ n = unitsOf w f ∧ n < 0x8000000000000000 := by
  have hempty : (w.isEmpty && f.isEmpty) = true ↔ w ++ f = [] := by
    rw [Bool.and_eq_true, List.isEmpty_iff, List.isEmpty_iff, List.append_eq_nil_iff]
  have hall : (!(w ++ f).all isDecimalDigit) = true ↔ ¬ ∀ c ∈ w ++ f, c.isDigit := by
    simp only [Bool.not_eq_true', ← Bool.not_eq_true, List.all_eq_true, isDecimalDigit_eq]
  unfold readMagnitude
  rw [h]
  dsimp only
  split_ifs with h1 h2 h3
  · exact iff_of_false nofun fun hr => hr.1 (hempty.1 h1)
  · exact iff_of_false nofun fun hr => hall.1 h2 hr.2.1
  · exact iff_of_false nofun fun hr => Nat.not_lt.2 hr.2.2.1 h3
  · have hdigits : ∀ c ∈ w ++ f, c.isDigit := not_not.1 (mt hall.2 h2)
    obtain ⟨hw, hf⟩ := List.forall_mem_append.1 hdigits
    have hpadded : ∀ c ∈ f ++ List.replicate (places - f.length) '0', c.isDigit := by
      refine List.forall_mem_append.2 ⟨hf, fun c hc => ?_⟩
      rw [List.eq_of_mem_replicate hc]
      decide
    rw [bounded_bind_eq_ok_iff, bounded_bind_eq_ok_iff, bounded_eq_ok_iff,
      getD_decimalNumeral? hw, getD_decimalNumeral? hpadded]
    have hunits : unitsOf w f = Nat.ofDigitChars 10 w 0 * scale
        + Nat.ofDigitChars 10 (f ++ List.replicate (places - f.length) '0') 0 := rfl
    have hscale : Nat.ofDigitChars 10 w 0 ≤ Nat.ofDigitChars 10 w 0 * scale :=
      Nat.le_mul_of_pos_right _ (by decide)
    rw [← hunits]
    constructor
    · rintro ⟨-, -, hn, rfl⟩
      exact ⟨mt hempty.2 h1, hdigits, Nat.not_lt.1 h3, rfl, hn⟩
    · rintro ⟨-, -, -, rfl, hn⟩
      exact ⟨by omega, by omega, hn, rfl⟩

theorem readMagnitude_eq_ok_iff {s : List Char} {n : Nat} :
    readMagnitude s = .ok n ↔ IsMagnitude s n ∧ n < 0x8000000000000000 := by
  by_cases hpoint : '.' ∈ s
  · obtain ⟨w, f, rfl, hw⟩ := List.eq_append_cons_of_mem hpoint
    rw [readMagnitude_split (splitPoint_pointed hw)]
    constructor
    · rintro ⟨hne, hdigits, hle, rfl, hn⟩
      exact ⟨.pointed hdigits hne hle, hn⟩
    · rintro ⟨h, hn⟩
      generalize hs : w ++ '.' :: f = s at h
      cases h with
      | whole hdigits =>
        exact absurd (hs ▸ List.mem_append_right _ List.mem_cons_self)
          (notMem_point_of_digits hdigits)
      | pointed hdigits hne hle =>
        have hsplit := congrArg splitPoint hs
        rw [splitPoint_pointed hw, splitPoint_pointed
          (notMem_point_of_digits (List.forall_mem_append.1 hdigits).1)] at hsplit
        cases hsplit
        exact ⟨hne, hdigits, hle, rfl, hn⟩
  · rw [readMagnitude_split (splitPoint_of_notMem hpoint), List.append_nil]
    constructor
    · rintro ⟨hne, hdigits, -, rfl, hn⟩
      exact ⟨.whole hdigits hne, hn⟩
    · rintro ⟨h, hn⟩
      cases h with
      | whole hdigits hne => exact ⟨hne, hdigits, Nat.zero_le _, rfl, hn⟩
      | pointed => exact absurd (List.mem_append_right _ List.mem_cons_self) hpoint

theorem IsMagnitude.digit_or_point {s : List Char} {n : Nat} (h : IsMagnitude s n) :
    ∀ c ∈ s, c.isDigit ∨ c = '.' := by
  intro c hc
  cases h with
  | whole hdigits => exact .inl (hdigits c hc)
  | pointed hdigits =>
    rcases List.mem_append.1 hc with hc | hc
    · exact .inl (hdigits c (List.mem_append_left _ hc))
    · exact (List.mem_cons.1 hc).symm.imp_left fun hc => hdigits c (List.mem_append_right _ hc)

theorem not_isMagnitude_minus {s : List Char} {n : Nat} : ¬ IsMagnitude ('-' :: s) n :=
  fun h => absurd (h.digit_or_point '-' List.mem_cons_self) (by decide)

theorem not_isMagnitude_plus {s : List Char} {n : Nat} : ¬ IsMagnitude ('+' :: s) n :=
  fun h => absurd (h.digit_or_point '+' List.mem_cons_self) (by decide)

/-- A magnitude that was read is an amount under either sign. -/
theorem map_readMagnitude_eq_ok_iff {s : List Char} {a : Amount} (signed : Nat → Int)
    (hsigned : ∀ n, (signed n).natAbs = n) :
    ((readMagnitude s).map fun n => ofUnits (signed n)) = .ok a ↔
      (∃ n, IsMagnitude s n ∧ a.units = signed n) ∧ a.units.natAbs < 0x8000000000000000 := by
  have hunits {n : Nat} (hn : n < 0x8000000000000000) : (ofUnits (signed n)).units = signed n := by
    have habs := hsigned n
    exact units_ofUnits (by omega) (by omega)
  constructor
  · intro h
    rcases hread : readMagnitude s with e | n
    · rw [hread] at h
      cases h
    · rw [hread] at h
      cases h
      obtain ⟨hform, hn⟩ := readMagnitude_eq_ok_iff.1 hread
      rw [hunits hn, hsigned]
      exact ⟨⟨n, hform, rfl⟩, hn⟩
  · rintro ⟨⟨n, hform, hn⟩, hlt⟩
    rw [hn, hsigned] at hlt
    rw [readMagnitude_eq_ok_iff.2 ⟨hform, hlt⟩, Except.map, ← hn, ofUnits_units]

theorem parse_eq_ok_iff {s : String} {a : Amount} : parse s = .ok a ↔
    IsAmount (trimBlank s.toList) a.units ∧ a.units.natAbs < 0x8000000000000000 := by
  unfold parse
  split
  · rename_i rest hs
    rw [hs, map_readMagnitude_eq_ok_iff (fun n => -(n : Int)) fun n => by omega]
    refine and_congr_left' ⟨fun ⟨n, h, hn⟩ => hn ▸ .minus h, fun h => ?_⟩
    generalize a.units = units at h
    cases h with
    | plain h => exact absurd h not_isMagnitude_minus
    | minus h => exact ⟨_, h, rfl⟩
  · rename_i rest hs
    rw [hs, map_readMagnitude_eq_ok_iff (fun n => (n : Int)) fun n => by omega]
    refine and_congr_left' ⟨fun ⟨n, h, hn⟩ => hn ▸ .plus h, fun h => ?_⟩
    generalize a.units = units at h
    cases h with
    | plain h => exact absurd h not_isMagnitude_plus
    | plus h => exact ⟨_, h, rfl⟩
  · rename_i hminus hplus
    rw [map_readMagnitude_eq_ok_iff (fun n => (n : Int)) fun n => by omega]
    refine and_congr_left' ⟨fun ⟨n, h, hn⟩ => hn ▸ .plain h, fun h => ?_⟩
    generalize a.units = units, trimBlank s.toList = text at h hminus hplus
    cases h with
    | plain h => exact ⟨_, h, rfl⟩
    | plus h => exact absurd rfl (hplus _)
    | minus h => exact absurd rfl (hminus _)

/-! ## Writing -/

section Fraction

variable {frac : Nat}

theorem length_paddedDecimal (h : frac < 100000) : (paddedDecimal places frac).length = 5 := by
  have hlen : (Nat.toDigits 10 frac).length ≤ 5 :=
    (Nat.length_toDigits_le_iff (by decide) (by decide)).2 h
  simp only [paddedDecimal, List.length_append, List.length_replicate, places]
  omega

/-- The zeros that are left out at the end come back as padding. -/
theorem fractionDigits_append_padding (h : frac < 100000) :
    fractionDigits frac ++ List.replicate (5 - (fractionDigits frac).length) '0'
      = paddedDecimal places frac := by
  have hpad := rdropWhile_append_replicate (p := fun c => decide (c = '0')) (a := '0')
    (fun _ hc => of_decide_eq_true hc) (paddedDecimal places frac)
  rwa [length_paddedDecimal h] at hpad

theorem fractionDigits_prefix_paddedDecimal (frac : Nat) :
    fractionDigits frac <+: paddedDecimal places frac :=
  List.rdropWhile_prefix _ _

theorem fractionDigits_ne_nil (h0 : frac ≠ 0) (h : frac < 100000) : fractionDigits frac ≠ [] := by
  intro hnil
  have hpad := fractionDigits_append_padding h
  rw [hnil] at hpad
  apply h0
  rw [← ofDigitChars_paddedDecimal places frac, ← hpad]
  rfl

theorem getLast?_fractionDigits : (fractionDigits frac).getLast? ≠ some '0' := by
  intro hlast
  have hne : fractionDigits frac ≠ [] := by
    rintro hnil
    rw [hnil] at hlast
    cases hlast
  rw [List.getLast?_eq_some_getLast hne, Option.some.injEq] at hlast
  exact List.rdropWhile_last_not _ _ hne (decide_eq_true hlast)

end Fraction

theorem isMagnitude_magnitudeText (n : Nat) : IsMagnitude (magnitudeText n) n := by
  have hsum : n / 100000 * 100000 + n % 100000 = n := Nat.div_add_mod' n 100000
  have hfrac : n % 100000 < 100000 := Nat.mod_lt n (by decide)
  have hwhole : ∀ c ∈ Nat.toDigits 10 (n / 100000), c.isDigit := fun c => isDigit_of_mem_toDigits
  have hvalue := Nat.ofDigitChars_ten_toDigits (n := n / 100000)
  rw [magnitudeText, scale]
  split
  · rename_i hzero
    have hunits : unitsOf (Nat.toDigits 10 (n / 100000)) [] = n := by
      rw [unitsOf_nil, hvalue]
      rwa [hzero, Nat.add_zero] at hsum
    have hform := IsMagnitude.whole hwhole Nat.toDigits_ne_nil
    rwa [hunits, ← List.append_nil (Nat.toDigits 10 (n / 100000))] at hform
  · rename_i hzero
    have hunits : unitsOf (Nat.toDigits 10 (n / 100000)) (fractionDigits (n % 100000)) = n := by
      rw [unitsOf, hvalue, fractionDigits_append_padding hfrac, ofDigitChars_paddedDecimal,
        hsum]
    have hdigits : ∀ c ∈ fractionDigits (n % 100000), c.isDigit :=
      fun c hc => isDigit_of_mem_paddedDecimal ((fractionDigits_prefix_paddedDecimal _).subset hc)
    have hlen := (fractionDigits_prefix_paddedDecimal (n % 100000)).length_le
    rw [length_paddedDecimal hfrac] at hlen
    have hform := IsMagnitude.pointed (List.forall_mem_append.2 ⟨hwhole, hdigits⟩)
      (List.append_ne_nil_of_left_ne_nil Nat.toDigits_ne_nil _) hlen
    rwa [hunits] at hform

theorem isAmount_digits (a : Amount) : IsAmount a.digits a.units := by
  rw [digits]
  split
  · rename_i hneg
    have hunits : a.units = -(a.units.natAbs : Int) := by omega
    have hminus := IsAmount.minus (isMagnitude_magnitudeText a.units.natAbs)
    rwa [← hunits] at hminus
  · rename_i hpos
    have hunits : a.units = (a.units.natAbs : Int) := by omega
    have hplain := IsAmount.plain (isMagnitude_magnitudeText a.units.natAbs)
    rwa [← hunits] at hplain

theorem isBlank_of_isAmount {s : List Char} {units : Int} (h : IsAmount s units) :
    ∀ c ∈ s, isBlank c = false := by
  have hbody {s : List Char} {n : Nat} (h : IsMagnitude s n) : ∀ c ∈ s, isBlank c = false := by
    intro c hc
    rcases h.digit_or_point c hc with hdigit | rfl
    · exact isBlank_of_isDigit hdigit
    · decide
  cases h with
  | plain h => exact hbody h
  | plus h => exact List.forall_mem_cons.2 ⟨by decide, hbody h⟩
  | minus h => exact List.forall_mem_cons.2 ⟨by decide, hbody h⟩

theorem toList_text (a : Amount) : a.text.toList = a.digits := String.toList_ofList

/-- The text of an amount is read back if its units are not too many without their sign. -/
theorem parse_text_iff (a : Amount) : parse a.text = .ok a ↔ a.raw ≠ Int64.minValue := by
  have hform := isAmount_digits a
  have hlo := a.raw.le_toInt
  have hhi := a.raw.toInt_lt
  have hleast : a.raw = Int64.minValue ↔ a.units = -0x8000000000000000 := Int64.toInt_inj.symm
  rw [parse_eq_ok_iff, toList_text, trimBlank_eq_self (isBlank_of_isAmount hform), ne_eq, hleast]
  change -0x8000000000000000 ≤ a.units at hlo
  change a.units < 0x8000000000000000 at hhi
  constructor
  · rintro ⟨-, habs⟩
    omega
  · intro hne
    exact ⟨hform, by omega⟩

theorem point_mem_magnitudeText {n : Nat} : '.' ∈ magnitudeText n ↔ n % 100000 ≠ 0 := by
  have hwhole : '.' ∉ Nat.toDigits 10 (n / scale) :=
    notMem_point_of_digits fun c => isDigit_of_mem_toDigits
  rw [magnitudeText, List.mem_append]
  split
  · rename_i hzero
    exact iff_of_false (by simp [hwhole]) (not_not.2 hzero)
  · rename_i hzero
    exact iff_of_true (.inr List.mem_cons_self) hzero

theorem getLast?_magnitudeText {n : Nat} (h : n % 100000 ≠ 0) :
    (magnitudeText n).getLast? ≠ some '0' := by
  obtain ⟨c, frac, hfrac⟩ :=
    List.exists_cons_of_ne_nil (fractionDigits_ne_nil h (Nat.mod_lt n (by decide)))
  rw [magnitudeText, scale, if_neg h, List.getLast?_append_of_ne_nil _ (List.cons_ne_nil _ _),
    hfrac, List.getLast?_cons_cons, ← hfrac]
  exact getLast?_fractionDigits

/-- A sign in front changes neither whether there is a point nor the last character. -/
theorem digits_eq (a : Amount) : ∃ sign, a.digits = sign ++ magnitudeText a.units.natAbs
    ∧ '.' ∉ sign := by
  rw [digits]
  split
  · exact ⟨['-'], rfl, by decide⟩
  · exact ⟨[], rfl, by decide⟩

/-- A text is read exactly if, but for the blanks around it, it is a sign or none, digits and at
most one point with at most five places behind it, and it is read to the number of units that it
says if that is below the capacity of a signed word. What is written for an amount is read back,
unless it is the least one. It has a point only where there is something behind it, and there no
zero at the end. -/
theorem text_grammar :
    (∀ (s : String) (units : Int), (∃ a, parse s = .ok a ∧ a.units = units) ↔
      IsAmount (trimBlank s.toList) units ∧ units.natAbs ≤ 0x7fffffffffffffff)
    ∧ ∀ a : Amount, (parse a.text = .ok a ↔ a.raw ≠ Int64.minValue)
      ∧ ('.' ∈ a.text.toList ↔ a.units % 100000 ≠ 0)
      ∧ ('.' ∈ a.text.toList → a.text.toList.getLast? ≠ some '0') := by
  refine ⟨fun s units => ?_, fun a => ?_⟩
  · constructor
    · rintro ⟨a, ha, rfl⟩
      obtain ⟨hform, hlt⟩ := parse_eq_ok_iff.1 ha
      exact ⟨hform, Nat.le_of_lt_succ hlt⟩
    · rintro ⟨hform, hle⟩
      have hunits : (ofUnits units).units = units := units_ofUnits (by omega) (by omega)
      refine ⟨ofUnits units, parse_eq_ok_iff.2 ?_, hunits⟩
      rw [hunits]
      exact ⟨hform, Nat.lt_succ_of_le hle⟩
  · obtain ⟨sign, hdigits, hsign⟩ := digits_eq a
    have hpoint : '.' ∈ a.digits ↔ a.units.natAbs % 100000 ≠ 0 := by
      rw [hdigits, List.mem_append, or_iff_right hsign, point_mem_magnitudeText]
    rw [toList_text]
    refine ⟨parse_text_iff a, hpoint.trans (by omega), fun hmem => ?_⟩
    have hfrac := hpoint.1 hmem
    rw [hdigits, List.getLast?_append_of_ne_nil _
      (List.ne_nil_of_mem (point_mem_magnitudeText.2 hfrac))]
    exact getLast?_magnitudeText hfrac

/-- The greatest amount, between blanks; the text of one unit more is refused, and so is that of the
least amount. -/
theorem text_grammar_limits :
    (∃ a, parse "\t+92233720368547.75807\n" = .ok a ∧ a.units = 0x7fffffffffffffff)
      ∧ (¬ ∃ a, parse "92233720368547.75808" = .ok a ∧ a.units = 0x8000000000000000)
      ∧ parse (ofUnits (-0x8000000000000000)).text ≠ .ok (ofUnits (-0x8000000000000000))
      ∧ parse (ofUnits (-1)).text = .ok (ofUnits (-1)) := by
  obtain ⟨hread, hwritten⟩ := text_grammar
  have hgreatest : IsAmount (trimBlank "\t+92233720368547.75807\n".toList) 0x7fffffffffffffff := by
    have hform := IsAmount.plus (IsMagnitude.pointed (w := "92233720368547".toList)
      (f := "75807".toList) (List.all_eq_true.1 (by decide)) (by decide) (by decide))
    exact hform
  refine ⟨(hread _ _).2 ⟨hgreatest, by decide⟩, fun h => ?_, ?_, ?_⟩
  · exact absurd ((hread _ _).1 h).2 (by decide)
  · exact fun h => (hwritten _).1.1 h (by decide)
  · exact (hwritten _).1.2 (by decide)

end MeterLink.Amount

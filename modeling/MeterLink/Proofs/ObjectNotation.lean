import MeterLink.ObjectId
import MeterLink.Proofs.Numerals

/-!
# How identifiers are written

An identifier is read from one to six hexadecimal digits, with or without `0x`, and from three
groups of one or two digits with points between them (`ofTrimmed?_eq_some_iff`). Where digits are
expected, a plus in front of them is taken as well and counts as one of them, so that there are
texts that are read although no notation has them (`parse?_plus`).
-/

namespace MeterLink.ObjectId

/-- A row of at most `limit` digits that stands for `n`. -/
def Digits (limit : Nat) (s : List Char) (n : Nat) : Prop :=
  HexRow s n ∧ s.length ≤ limit

/-- A row of at most `limit` characters that stands for `n`: digits, or a plus and digits. -/
inductive Signed (limit : Nat) : List Char → Nat → Prop
  | digits {s : List Char} {n : Nat} (h : Digits limit s n) : Signed limit s n
  | plus {s : List Char} {n : Nat} (row : HexRow s n) (lt : s.length < limit) :
    Signed limit ('+' :: s) n

/-- The notations of the number `n`, by what is taken for a row of digits. -/
inductive Spelled (row : Nat → List Char → Nat → Prop) : List Char → Nat → Prop
  | plain {s : List Char} {n : Nat} (h : row 6 s n) : Spelled row s n
  | lower {s : List Char} {n : Nat} (h : row 6 s n) : Spelled row ('0' :: 'x' :: s) n
  | upper {s : List Char} {n : Nat} (h : row 6 s n) : Spelled row ('0' :: 'X' :: s) n
  | triplet {a b c : List Char} {hi mid lo : Nat} (ha : row 2 a hi) (hb : row 2 b mid)
    (hc : row 2 c lo) : Spelled row (a ++ '.' :: (b ++ '.' :: c)) (65536 * hi + 256 * mid + lo)

/-! ## Rows of digits -/

section Rows

variable {limit : Nat} {s : List Char} {n : Nat}

theorem Signed.exists_row (h : Signed limit s n) : ∃ r, HexRow r n ∧ r.length ≤ limit := by
  cases h with
  | digits h => exact ⟨s, h⟩
  | plus row lt => exact ⟨_, row, Nat.le_of_lt lt⟩

theorem Signed.forall_mem (h : Signed limit s n) {p : Char → Prop} [DecidablePred p]
    (hplus : p '+') (hp : (lowerDigits ++ upperDigits).all fun c => p c) : ∀ c ∈ s, p c := by
  cases h with
  | digits h => exact h.1.forall_mem hp
  | plus row => exact List.forall_mem_cons.2 ⟨hplus, row.forall_mem hp⟩

theorem Digits.notMem_plus (h : Digits limit s n) : '+' ∉ s :=
  fun hmem => h.1.forall_mem (p := (· ≠ '+')) (by decide) _ hmem rfl

theorem signed_iff :
    (s.length ≤ limit ∧ hexNumeral? (dropPlus s) = some n) ↔ Signed limit s n := by
  rw [hexNumeral?_eq_some_iff]
  unfold dropPlus
  split
  · rename_i rest
    refine ⟨fun ⟨hlen, hrow⟩ => .plus hrow hlen, fun h => ?_⟩
    cases h with
    | digits h => exact absurd List.mem_cons_self h.notMem_plus
    | plus row lt => exact ⟨lt, row⟩
  · rename_i hplus
    refine ⟨fun ⟨hlen, hrow⟩ => .digits ⟨hrow, hlen⟩, fun h => ?_⟩
    cases h with
    | digits h => exact ⟨h.2, h.1⟩
    | plus => exact absurd rfl (hplus _)

theorem group?_eq_some_iff : group? s = some n ↔ Signed 2 s n := by
  rw [← signed_iff, group?]
  split
  · rename_i h
    rw [and_iff_right h]
  · rename_i h
    exact iff_of_false nofun fun hs => h hs.1

end Rows

/-! ## Notations -/

theorem toNat_ofNat {n : Nat} (h : n < 0x1000000) : (ofNat n).toNat = n := by
  rw [toNat, ofNat, BitVec.toNat_ofNat]
  exact Nat.mod_eq_of_lt h

theorem ofNat_toNat (id : ObjectId) : ofNat id.toNat = id := by
  rw [ofNat, toNat, BitVec.ofNat_toNat, BitVec.setWidth_eq]

theorem intercalate_three (a b c : List Char) :
    ['.'].intercalate [a, b, c] = a ++ '.' :: (b ++ '.' :: c) := by
  simp [List.intercalate]

theorem pieces_three {a b c : List Char} (ha : '.' ∉ a) (hb : '.' ∉ b) (hc : '.' ∉ c) :
    pieces '.' (a ++ '.' :: (b ++ '.' :: c)) = [a, b, c] := by
  have hnone : ∀ l ∈ [a, b, c], '.' ∉ l := by simp [ha, hb, hc]
  rw [pieces_eq_splitOn, ← intercalate_three, List.splitOn_intercalate _ hnone (by simp)]

theorem eq_of_pieces {s a b c : List Char} (h : pieces '.' s = [a, b, c]) :
    s = a ++ '.' :: (b ++ '.' :: c) := by
  rw [← intercalate_three, ← h, pieces_eq_splitOn, List.intercalate_splitOn]

section Notations

variable {s : List Char} {n : Nat}

theorem Signed.notMem_point {limit : Nat} (h : Signed limit s n) : '.' ∉ s :=
  fun hmem => h.forall_mem (p := (· ≠ '.')) (by decide) (by decide) _ hmem rfl

theorem Spelled.lt (h : Spelled Signed s n) : n < 0x1000000 := by
  have hrow {limit : Nat} {r : List Char} {m : Nat} (h : Signed limit r m) :
      m < 1 <<< (4 * limit) := by
    obtain ⟨_, hr, hlen⟩ := h.exists_row
    exact hr.lt hlen
  cases h with
  | plain h => exact hrow h
  | lower h => exact hrow h
  | upper h => exact hrow h
  | triplet ha hb hc =>
    have hhi := hrow ha
    have hmid := hrow hb
    have hlo := hrow hc
    simp only [Nat.reduceMul, Nat.reduceShiftLeft] at hhi hmid hlo
    omega

theorem ofTrimmed?_of_unprefixed (hpoint : '.' ∉ s) (h : Signed 6 (unprefixed s) n) :
    ofTrimmed? s = some (ofNat n) := by
  obtain ⟨hlen, hnumeral⟩ := signed_iff.2 h
  rw [ofTrimmed?, if_neg hpoint]
  dsimp only
  rw [if_pos hlen, hnumeral, Option.map_some]

theorem unprefixed_of_signed {limit : Nat} (h : Signed limit s n) : unprefixed s = s := by
  have hx : ∀ c ∈ s, c ≠ 'x' ∧ c ≠ 'X' := h.forall_mem (by decide) (by decide)
  unfold unprefixed
  split
  · exact absurd rfl (hx 'x' (by simp)).1
  · exact absurd rfl (hx 'X' (by simp)).2
  · rfl

theorem ofTrimmed?_of_spelled (h : Spelled Signed s n) : ofTrimmed? s = some (ofNat n) := by
  cases h with
  | plain h =>
    have hsame := unprefixed_of_signed h
    exact ofTrimmed?_of_unprefixed h.notMem_point (hsame.symm ▸ h)
  | lower h => exact ofTrimmed?_of_unprefixed (by simp [h.notMem_point]) h
  | upper h => exact ofTrimmed?_of_unprefixed (by simp [h.notMem_point]) h
  | triplet ha hb hc =>
    rw [ofTrimmed?, if_pos (List.mem_append_right _ List.mem_cons_self),
      pieces_three ha.notMem_point hb.notMem_point hc.notMem_point]
    simp only [group?_eq_some_iff.2 ha, group?_eq_some_iff.2 hb, group?_eq_some_iff.2 hc]
    rfl

theorem spelled_of_ofTrimmed? {id : ObjectId} (h : ofTrimmed? s = some id) :
    ∃ n, Spelled Signed s n ∧ ofNat n = id := by
  unfold ofTrimmed? at h
  split at h
  · split at h
    · rename_i a b c hpieces
      obtain ⟨hi, ha, h⟩ := Option.bind_eq_some_iff.1 h
      obtain ⟨mid, hb, h⟩ := Option.bind_eq_some_iff.1 h
      obtain ⟨lo, hc, h⟩ := Option.bind_eq_some_iff.1 h
      rw [eq_of_pieces hpieces]
      exact ⟨_, .triplet (group?_eq_some_iff.1 ha) (group?_eq_some_iff.1 hb)
        (group?_eq_some_iff.1 hc), Option.some.inj h⟩
    · cases h
  · dsimp only at h
    split at h
    · rename_i hlen
      obtain ⟨n, hn, hid⟩ := Option.map_eq_some_iff.1 h
      refine ⟨n, ?_, hid⟩
      have hrow := signed_iff.1 ⟨hlen, hn⟩
      unfold unprefixed at hrow
      split at hrow
      · exact .lower hrow
      · exact .upper hrow
      · exact .plain hrow
    · cases h

theorem ofTrimmed?_eq_some_iff {id : ObjectId} :
    ofTrimmed? s = some id ↔ Spelled Signed s id.toNat := by
  constructor
  · intro h
    obtain ⟨n, hn, rfl⟩ := spelled_of_ofTrimmed? h
    rwa [toNat_ofNat hn.lt]
  · intro h
    rw [ofTrimmed?_of_spelled h, ofNat_toNat]

/-- What is written in a notation stays written in it if its rows of digits do. -/
theorem Spelled.imp {row row' : Nat → List Char → Nat → Prop} (h : Spelled row s n)
    (himp : ∀ {limit : Nat} {r : List Char} {m : Nat}, r ⊆ s → row limit r m → row' limit r m) :
    Spelled row' s n := by
  cases h with
  | plain h => exact .plain (himp (List.Subset.refl _) h)
  | lower h => exact .lower (himp (by simp) h)
  | upper h => exact .upper (himp (by simp) h)
  | triplet ha hb hc =>
    exact .triplet (himp (by simp) ha) (himp (fun _ hr => by simp [hr]) hb)
      (himp (fun _ hr => by simp [hr]) hc)

theorem spelled_digits_iff : Spelled Digits s n ↔ Spelled Signed s n ∧ '+' ∉ s := by
  constructor
  · intro h
    refine ⟨h.imp fun _ hr => .digits hr, ?_⟩
    cases h with
    | plain h => exact h.notMem_plus
    | lower h => simp [h.notMem_plus]
    | upper h => simp [h.notMem_plus]
    | triplet ha hb hc => simp [ha.notMem_plus, hb.notMem_plus, hc.notMem_plus]
  · rintro ⟨h, hplus⟩
    refine h.imp fun hsub hr => ?_
    cases hr with
    | digits hr => exact hr
    | plus => exact absurd (hsub List.mem_cons_self) hplus

end Notations

/-- But for the blanks around it, a text is read exactly if it is in one of the notations, and to
the number that its digits stand for, of which nothing is cut off. In each place for digits a plus
may stand in front of them; the texts without one are those that are written in digits alone. -/
theorem parse?_notation (s : String) :
    (∀ id, parse? s = some id ↔ Spelled Signed (trimBlank s.toList) id.toNat)
    ∧ (parse? s = none ↔ ∀ n, ¬ Spelled Signed (trimBlank s.toList) n)
    ∧ (∀ n, Spelled Signed (trimBlank s.toList) n → n < 0x1000000)
    ∧ ∀ n, Spelled Digits (trimBlank s.toList) n ↔
      Spelled Signed (trimBlank s.toList) n ∧ '+' ∉ trimBlank s.toList := by
  refine ⟨fun id => ofTrimmed?_eq_some_iff, ?_, fun n h => h.lt, fun n => spelled_digits_iff⟩
  rw [parse?, Option.eq_none_iff_forall_ne_some]
  constructor
  · intro h n hn
    exact h _ (ofTrimmed?_of_spelled hn)
  · intro h id hid
    exact h _ (ofTrimmed?_eq_some_iff.1 hid)

/-- Three groups of which one has a single digit and one is in upper case, between blanks. -/
theorem parse?_notation_triplet : parse? "\t60.1.FF " = some (ofNat 0x6001ff)
    ∧ Spelled Digits (trimBlank "\t60.1.FF ".toList) 0x6001ff
    ∧ parse? "60.1" = none ∧ ∀ n, ¬ Spelled Signed (trimBlank "60.1".toList) n := by
  obtain ⟨hread, -, -, hdigits⟩ := parse?_notation "\t60.1.FF "
  obtain ⟨-, hnone, -⟩ := parse?_notation "60.1"
  have hparse : parse? "\t60.1.FF " = some (ofNat 0x6001ff) := by decide +kernel
  have hrefused : parse? "60.1" = none := by decide +kernel
  exact ⟨hparse, (hdigits _).2 ⟨(hread _).1 hparse, by decide +kernel⟩, hrefused, hnone.1 hrefused⟩

/-- Five digits behind a plus are read as if the plus were a zero. -/
theorem parse?_plus : parse? "+60010" = some (ofNat 0x060010)
    ∧ ∀ n, ¬ Spelled Digits (trimBlank "+60010".toList) n := by
  refine ⟨by decide +kernel, fun n h => ?_⟩
  exact (spelled_digits_iff.1 h).2 (by decide +kernel)

end MeterLink.ObjectId

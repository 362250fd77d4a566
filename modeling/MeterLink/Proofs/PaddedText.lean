import Mathlib.Data.List.DropRight
import Mathlib.Tactic.SplitIfs
import MeterLink.Record.Codec

/-!
# Text filled up with NUL

An ASCII text and its bytes say the same (`ofList_asciiBytes`, `asciiBytes_ofList`), but NULs at
the end of the bytes are lost in reading (`stripNul`). So a text comes back from its bytes unless
it ends in NUL itself (`readAscii_padded`), and bytes come back from their text up to the NULs at
their end, which a fixed width puts back (`writeAscii_readAscii`, `writeAscii_remainder`).
-/

namespace MeterLink

/-- The bytes without the NULs at their end. -/
def stripNul (bs : Bytes) : Bytes := bs.rdropWhile (· == 0)

theorem stripNul_append_replicate (bs : Bytes) (k : Nat) :
    stripNul (bs ++ List.replicate k 0) = stripNul bs := by
  rw [stripNul, List.rdropWhile, List.reverse_append, List.reverse_replicate,
    List.dropWhile_append_of_pos (by simp), ← List.rdropWhile, stripNul]

theorem stripNul_eq_self {bs : Bytes} (h : bs.getLast? ≠ some 0) : stripNul bs = bs := by
  refine List.rdropWhile_eq_self_iff.2 fun hne h0 => h ?_
  rw [List.getLast?_eq_some_getLast hne, eq_of_beq h0]

/-- What was dropped at the end of a list is put back by as many copies of what was dropped. -/
theorem rdropWhile_append_replicate {α : Type} {p : α → Bool} {a : α} (hp : ∀ b, p b → b = a)
    (l : List α) :
    l.rdropWhile p ++ List.replicate (l.length - (l.rdropWhile p).length) a = l := by
  have hsplit : l.rdropWhile p ++ l.rtakeWhile p = l := List.rdropWhile_append_rtakeWhile
  have hlen := congrArg List.length hsplit
  rw [List.length_append] at hlen
  have hsame : l.rtakeWhile p = List.replicate (l.length - (l.rdropWhile p).length) a :=
    List.eq_replicate_iff.2 ⟨by omega, fun b hb => hp b (List.mem_rtakeWhile_imp hb)⟩
  rw [← hsame, hsplit]

theorem stripNul_append_padding (bs : Bytes) :
    stripNul bs ++ List.replicate (bs.length - (stripNul bs).length) 0 = bs :=
  rdropWhile_append_replicate (fun _ hb => eq_of_beq hb) bs

theorem mem_of_mem_stripNul {bs : Bytes} {b : UInt8} (h : b ∈ stripNul bs) : b ∈ bs :=
  (List.rdropWhile_prefix _ bs).subset h

/-! ## Characters and bytes -/

theorem firstNonAscii?_eq_none_iff {bs : Bytes} :
    firstNonAscii? bs = none ↔ ∀ b ∈ bs, b.toNat < 128 := by
  rw [firstNonAscii?, List.find?_eq_none]
  constructor
  · intro h b hb
    obtain ⟨i, hi⟩ := List.mem_iff_getElem?.1 hb
    simpa using h (b, i) (List.mem_zipIdx_iff_getElem?.2 hi)
  · rintro h ⟨b, i⟩ hp
    have hb := h b (List.mem_of_getElem? (List.mem_zipIdx_iff_getElem?.1 hp))
    simpa using hb

theorem isAscii_iff {s : String} : isAscii s = true ↔ ∀ c ∈ s.toList, c.toNat < 128 := by
  simp only [isAscii, List.all_eq_true, decide_eq_true_eq]

theorem toNat_asciiByte {c : Char} (h : c.toNat < 128) : (UInt8.ofNat c.toNat).toNat = c.toNat := by
  rw [UInt8.toNat_ofNat']
  exact Nat.mod_eq_of_lt (by omega)

theorem toNat_asciiChar {b : UInt8} (h : b.toNat < 128) : (Char.ofNat b.toNat).toNat = b.toNat := by
  have hvalid : b.toNat.isValidChar := .inl (by omega)
  rw [Char.ofNat, dif_pos hvalid]
  rfl

theorem ofList_asciiBytes {s : String} (h : isAscii s = true) :
    String.ofList ((asciiBytes s).map fun b => Char.ofNat b.toNat) = s := by
  have hchars : (asciiBytes s).map (fun b => Char.ofNat b.toNat) = s.toList := by
    rw [asciiBytes, List.map_map]
    refine (List.map_congr_left fun c hc => ?_).trans (List.map_id _)
    simp only [Function.comp_apply, toNat_asciiByte (isAscii_iff.1 h c hc), Char.ofNat_toNat, id]
  rw [hchars, String.ofList_toList]

theorem asciiBytes_ofList {bs : Bytes} (h : ∀ b ∈ bs, b.toNat < 128) :
    asciiBytes (String.ofList (bs.map fun b => Char.ofNat b.toNat)) = bs := by
  rw [asciiBytes, String.toList_ofList, List.map_map]
  refine (List.map_congr_left fun b hb => ?_).trans (List.map_id _)
  simp only [Function.comp_apply, toNat_asciiChar (h b hb), UInt8.ofNat_toNat, id]

theorem isAscii_ofList {bs : Bytes} (h : ∀ b ∈ bs, b.toNat < 128) :
    isAscii (String.ofList (bs.map fun b => Char.ofNat b.toNat)) = true := by
  rw [isAscii_iff, String.toList_ofList]
  intro c hc
  obtain ⟨b, hb, rfl⟩ := List.mem_map.1 hc
  rw [toNat_asciiChar (h b hb)]
  exact h b hb

theorem length_asciiBytes (s : String) : (asciiBytes s).length = s.length := by
  rw [asciiBytes, List.length_map, String.length_toList]

theorem asciiBytes_lt {s : String} (h : isAscii s = true) : ∀ b ∈ asciiBytes s, b.toNat < 128 := by
  intro b hb
  obtain ⟨c, hc, rfl⟩ := List.mem_map.1 hb
  rw [toNat_asciiByte (isAscii_iff.1 h c hc)]
  exact isAscii_iff.1 h c hc

theorem getLast?_asciiBytes {s : String} (h : isAscii s = true)
    (hlast : s.toList.getLast? ≠ some '\x00') : (asciiBytes s).getLast? ≠ some 0 := by
  rw [asciiBytes, List.getLast?_map]
  intro h0
  obtain ⟨c, hc, hb⟩ := Option.map_eq_some_iff.1 h0
  have hsmall := isAscii_iff.1 h c (List.mem_of_getLast? hc)
  have hzero : c.toNat = 0 := by
    rw [← toNat_asciiByte hsmall, hb]
    rfl
  apply hlast
  rw [hc, ← Char.ofNat_toNat c, hzero]

/-! ## Reading and writing -/

theorem readAscii_eq_ok_iff {bs : Bytes} {s : String} : readAscii bs = .ok s ↔
    (∀ b ∈ bs, b.toNat < 128)
      ∧ s = String.ofList ((stripNul bs).map fun b => Char.ofNat b.toNat) := by
  rw [readAscii, ← firstNonAscii?_eq_none_iff]
  split
  · rename_i hsome
    simp [hsome]
  · rename_i hnone
    simp only [hnone, true_and, Except.ok.injEq]
    exact eq_comm

theorem writeAscii_eq_ok_iff {extent : Extent} {s : String} {bs : Bytes} :
    writeAscii extent s = .ok bs ↔ isAscii s = true ∧ match extent with
      | .remainder => bs = asciiBytes s
      | .fixed n => s.length ≤ n ∧ bs = asciiBytes s ++ List.replicate (n - s.length) 0 := by
  unfold writeAscii
  split_ifs with h
  · cases extent with
    | remainder => simp [h, eq_comm]
    | fixed n =>
      simp only [h, true_and]
      split_ifs with hn
      · simp [hn, eq_comm]
      · simp [hn]
  · simp [h]

theorem readAscii_padded {s : String} (h : isAscii s = true)
    (hlast : s.toList.getLast? ≠ some '\x00') (k : Nat) :
    readAscii (asciiBytes s ++ List.replicate k 0) = .ok s := by
  refine readAscii_eq_ok_iff.2 ⟨fun b hb => ?_, ?_⟩
  · rcases List.mem_append.1 hb with hs | hk
    · exact asciiBytes_lt h b hs
    · rw [List.eq_of_mem_replicate hk]
      decide
  · rw [stripNul_append_replicate, stripNul_eq_self (getLast?_asciiBytes h hlast),
      ofList_asciiBytes h]

theorem writeAscii_remainder {bs : Bytes} {s : String} (h : readAscii bs = .ok s) :
    writeAscii .remainder s = .ok (stripNul bs) := by
  obtain ⟨hbs, rfl⟩ := readAscii_eq_ok_iff.1 h
  have hstrip : ∀ b ∈ stripNul bs, b.toNat < 128 := fun b hb => hbs b (mem_of_mem_stripNul hb)
  exact writeAscii_eq_ok_iff.2 ⟨isAscii_ofList hstrip, (asciiBytes_ofList hstrip).symm⟩

theorem writeAscii_readAscii {bs : Bytes} {s : String} (h : readAscii bs = .ok s) :
    writeAscii (.fixed bs.length) s = .ok bs := by
  obtain ⟨hascii, hstrip⟩ := writeAscii_eq_ok_iff.1 (writeAscii_remainder h)
  have hlen : s.length = (stripNul bs).length := by rw [hstrip, length_asciiBytes]
  have hle : (stripNul bs).length ≤ bs.length := (List.rdropWhile_prefix _ bs).length_le
  refine writeAscii_eq_ok_iff.2 ⟨hascii, by omega, ?_⟩
  rw [← hstrip, hlen, stripNul_append_padding]

end MeterLink

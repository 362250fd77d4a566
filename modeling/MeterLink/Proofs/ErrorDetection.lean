import Mathlib.Data.List.Basic
import MeterLink.Client.Transaction
import MeterLink.Proofs.CheckRegister
import MeterLink.Proofs.FrameRoundTrip

/-!
# Errors that the checksum detects

A whole frame carries the right checksum exactly when the register is empty after all that follows
the delimiter, the checksum included (`carried_eq_iff`). So an error goes unseen exactly when its
own bits leave an empty register empty (`foldl_feed_disturb`), and neither a burst of at most
sixteen bits (`residue_burst`) nor an odd number of bits (`residue_odd`) does that.
-/

namespace MeterLink

/-- The bytes after an error on the way has flipped the bits that are set in `e`. -/
def disturb (bs e : Bytes) : Bytes := List.zipWith (· ^^^ ·) bs e

/-- The set bits lie within sixteen consecutive places. -/
def IsBurst (bs : List Bool) : Prop := ∃ k, ∀ i, bs[i]? = some true → k ≤ i ∧ i < k + 16

theorem length_disturb {bs e : Bytes} (h : e.length = bs.length) :
    (disturb bs e).length = bs.length := by
  rw [disturb, List.length_zipWith, h, Nat.min_self]

theorem bitsOf_xor (a b : UInt8) : bitsOf (a ^^^ b) = List.zipWith (· ^^ ·) (bitsOf a) (bitsOf b) := by
  simp [bitsOf, List.zipWith_map, List.zipWith_self]

theorem bits_disturb : ∀ bs e : Bytes, e.length = bs.length →
    bits (disturb bs e) = List.zipWith (· ^^ ·) (bits bs) (bits e)
  | [], [], _ => rfl
  | b :: bs, x :: e, h => by
    have ih := bits_disturb bs e (by simpa using h)
    simp only [disturb, bits, List.zipWith_cons_cons, List.flatMap_cons] at ih ⊢
    rw [ih, bitsOf_xor, List.zipWith_append (by simp only [length_bitsOf])]

theorem true_mem_bits {e : Bytes} {x : UInt8} (hx : x ∈ e) (h0 : x ≠ 0) : true ∈ bits e := by
  by_contra hno
  apply h0
  have hbits : ∀ i < 8, x.toBitVec.getMsbD i = false := by
    intro i hi
    have hb : x.toBitVec.getMsbD i ∈ bits e :=
      List.mem_flatMap.2 ⟨x, hx, List.mem_map.2 ⟨i, List.mem_range.2 hi, rfl⟩⟩
    rcases hb' : x.toBitVec.getMsbD i with _ | _
    · rfl
    · exact absurd (hb' ▸ hb) hno
  apply UInt8.toBitVec_inj.1
  apply BitVec.eq_of_getMsbD_eq
  intro i hi
  rw [hbits i hi]
  simp

namespace Crc

theorem lead_bits_pair (a b : UInt8) :
    lead (bits [a, b]) = (UInt16.ofNat (ofBigEndian [a, b])).toBitVec := by
  have hword : (UInt16.ofNat (ofBigEndian [a, b])).toBitVec = a.toBitVec ++ b.toBitVec := by
    apply BitVec.eq_of_toNat_eq
    have ha := a.toNat_lt
    have hb := b.toNat_lt
    rw [BitVec.toNat_append, ← Nat.shiftLeft_add_eq_or_of_lt b.toBitVec.isLt]
    simp [ofBigEndian, ofLittleEndian, Nat.shiftLeft_eq]
    omega
  rw [hword]
  apply BitVec.eq_of_getMsbD_eq
  intro i hi
  rw [getMsbD_lead _ hi, BitVec.getMsbD_append]
  by_cases h8 : i < 8
  · simp [bits, bitsOf, List.getElem?_append, h8]
  · simp [bits, bitsOf, List.getElem?_append, h8, show i - 8 < 8 by omega]

/-- What error bits leave in an empty register. -/
def residue (bs : List Bool) : BitVec 16 := bs.foldl feed 0#16

theorem residue_append_false {bs cs : List Bool} (h : true ∉ bs) :
    residue (bs ++ cs) = residue cs := by
  rw [residue, List.foldl_append, foldl_feed_false bs _ h, repeat_shift_zero, residue]

theorem residue_odd {bs : List Bool} (h : Odd (bs.count true)) : residue bs ≠ 0#16 := by
  intro h0
  have hp := parity_foldl_feed bs 0#16
  rw [← residue, h0, decide_eq_true h] at hp
  exact absurd hp (by decide)

theorem residue_burst {bs : List Bool} (h : IsBurst bs) (hone : true ∈ bs) : residue bs ≠ 0#16 := by
  obtain ⟨k, hk⟩ := h
  -- Zeros before the burst leave the register empty, and zeros after it only shift.
  have hbefore : true ∉ bs.take k := by
    intro hmem
    obtain ⟨i, hi, hbit⟩ := List.mem_take_iff_getElem.1 hmem
    have := hk i (by rw [List.getElem?_eq_getElem (by omega), hbit])
    omega
  have hafter : true ∉ bs.drop (k + 16) := by
    intro hmem
    obtain ⟨i, hi, hbit⟩ := List.mem_drop_iff_getElem.1 hmem
    have := hk (k + 16 + i) (by rw [List.getElem?_eq_getElem (by omega), hbit])
    omega
  have hsplit : bs = bs.take k ++ ((bs.drop k).take 16 ++ bs.drop (k + 16)) := by
    rw [← List.drop_drop, List.take_append_drop, List.take_append_drop]
  have hwindow : true ∈ (bs.drop k).take 16 := by
    rw [hsplit] at hone
    simp only [List.mem_append] at hone
    tauto
  have hlen : ((bs.drop k).take 16).length ≤ 16 := List.length_take_le _ _
  intro h0
  rw [hsplit, residue_append_false hbefore, residue, List.foldl_append,
    foldl_feed_false _ _ hafter, foldl_feed_eq_repeat _ _ hlen, BitVec.zero_xor] at h0
  exact lead_eq_zero hlen (repeat_shift_eq_zero (repeat_shift_eq_zero h0)) hwindow

theorem foldl_feed_disturb {bs e : Bytes} (r : BitVec 16) (h : e.length = bs.length) :
    (bits (disturb bs e)).foldl feed r = (bits bs).foldl feed r ^^^ residue (bits e) := by
  have hlin := foldl_feed_xor (bits bs) (bits e) r 0#16 (by simp only [length_bits, h])
  rw [bits_disturb bs e h, residue, ← hlin, BitVec.xor_zero]

end Crc

namespace Frame

open Crc

theorem carried_eq_iff {frame : Bytes} (h : 3 ≤ frame.length) : carried frame = ofFrame frame ↔
    (bits (frame.drop 1)).foldl feed 0xFFFF#16 = 0#16 := by
  have hlast : (frame.drop (frame.length - 2)).length = 2 := by
    rw [List.length_drop]
    omega
  obtain ⟨a, b, hab⟩ := List.length_eq_two.1 hlast
  have hsplit : frame.drop 1 = covered frame ++ [a, b] := by
    rw [← hab, covered, show frame.length - 2 = 1 + (frame.length - 3) by omega, ← List.drop_drop,
      List.take_append_drop]
  rw [hsplit, bits_append, List.foldl_append,
    ← extend_eq_foldl _ (covered frame), foldl_feed_eq_zero_iff (length_bits [a, b]), lead_bits_pair,
    ← UInt16.toBitVec_inj, carried, hab, eq_comm]
  rfl

section Disturbed

variable {f : Frame} {r e : Bytes}

theorem carried_disturb (h : f.encode = .ok r) (hlen : e.length = r.length)
    (hhead : e.take 2 = [0, 0]) (hres : residue (bits e) ≠ 0#16) :
    carried (disturb r e) ≠ ofFrame (disturb r e) := by
  have hover := overhead_lt_length h
  simp only [overhead] at hover
  have hsound := (carried_eq_iff (by omega)).1 (ofFrame_encode h).symm
  -- The register does not see the delimiter, where the error has no bits.
  have hskip : residue (bits (e.drop 1)) = residue (bits e) := by
    obtain ⟨x, e', rfl⟩ := List.exists_cons_of_length_pos (l := e) (by omega)
    have hx : x = 0 := by simpa using congrArg List.head? hhead
    subst hx
    exact (residue_append_false (by decide)).symm
  intro heq
  have hzero := (carried_eq_iff (by rw [length_disturb hlen]; omega)).1 heq
  rw [disturb, List.drop_zipWith, ← disturb, foldl_feed_disturb _ (by simp [hlen]), hsound,
    BitVec.zero_xor, hskip] at hzero
  exact hres hzero

theorem wholeSize_disturb (h : f.encode = .ok r) (hlen : e.length = r.length)
    (hhead : e.take 2 = [0, 0]) : wholeSize (disturb r e) = .ok (disturb r e).length := by
  have hr := length_encode h
  have hover := overhead_lt_length h
  obtain ⟨rest, rfl⟩ := encode_eq_cons h
  obtain ⟨x, y, e', rfl⟩ : ∃ x y e', e = x :: y :: e' := by
    match e, hlen with
    | x :: y :: e', _ => exact ⟨x, y, e', rfl⟩
  simp only [List.take_succ_cons, List.take_zero, List.cons.injEq, and_true] at hhead
  obtain ⟨rfl, rfl⟩ := hhead
  rw [length_disturb hlen]
  refine wholeSize_eq_ok_iff.2 ⟨f.length, disturb rest e', ?_, by omega, hr, ?_⟩
  · simp [disturb]
  · rw [length_disturb hlen]

/-- An error that leaves delimiter and length alone is found out if its bits lie within sixteen
consecutive places or are odd in number, and the transaction then tries again. -/
theorem decodeVerified_disturb (h : f.encode = .ok r) (hlen : e.length = r.length)
    (hhead : e.take 2 = [0, 0]) (hne : ∃ x ∈ e, x ≠ 0)
    (herr : IsBurst (bits e) ∨ Odd ((bits e).count true)) :
    let fault := CodecFault.checksum (ofFrame (disturb r e)) (carried (disturb r e))
    decodeVerified (disturb r e) = .error fault
      ∧ ∀ settings : TransactionSettings, settings.verifyChecksum = true →
        Attempt.ofOutcome settings (.ok (disturb r e)) = .retryable (.codec fault) := by
  intro fault
  have hres : residue (bits e) ≠ 0#16 := by
    rcases herr with hburst | hodd
    · obtain ⟨x, hx, h0⟩ := hne
      exact residue_burst hburst (true_mem_bits hx h0)
    · exact residue_odd hodd
  have hdec : decodeVerified (disturb r e) = .error fault := by
    have hover := overhead_lt_length h
    rw [← length_disturb hlen] at hover
    rw [decodeVerified, wholeSize_disturb h hlen hhead]
    simp only [bind, Except.bind, List.take_length]
    rw [verify_eq hover, if_neg (carried_disturb h hlen hhead hres)]
  refine ⟨hdec, fun settings hv => ?_⟩
  simp only [Attempt.ofOutcome, TransactionSettings.readFrame, hv, if_true, hdec]
  rw [if_pos (show fault.IsCorruption from trivial)]

/-- A request for the serial number, with a burst of sixteen bits that begins in the last byte of
its data field and ends in the last byte of the checksum. -/
theorem decodeVerified_disturb_request :
    let f : Frame := ⟨17, ⟨0, 0⟩, ⟨0, 0x21ae42⟩, 5, .object ⟨0x600100⟩ .read [], 0⟩
    let r : Bytes := f.unsealed ++ [0xc0, 0x2f]
    let e : Bytes := List.replicate 15 0 ++ [0x08, 0, 0x10]
    f.encode = .ok r ∧ decodeVerified (disturb r e) = .error (.checksum 0x4127 0xc03f) := by
  intro f r e
  have henc : f.encode = .ok r := encode_eq_ok_iff.2 ⟨by decide, by decide +kernel⟩
  have hburst : ∀ i < (bits e).length, (bits e)[i]? = some true → 124 ≤ i ∧ i < 124 + 16 := by
    decide +kernel
  have hseen := (decodeVerified_disturb (e := e) henc rfl rfl ⟨0x08, by decide, by decide⟩
    (.inl ⟨124, fun i hi => hburst i (List.getElem?_eq_some_iff.1 hi).1 hi⟩)).1
  rw [show ofFrame (disturb r e) = 0x4127 by decide +kernel,
    show carried (disturb r e) = 0xc03f by decide +kernel] at hseen
  exact ⟨henc, hseen⟩

end Disturbed

end Frame

end MeterLink

import Mathlib.Algebra.Ring.Parity
import Mathlib.Tactic.SplitIfs
import MeterLink.Bytes.Crc

/-!
# The checksum register, bit by bit

Taking in a byte is taking in its eight bits (`step_eq_foldl`), the highest first, and a register
that is fed its own sixteen bits ends up empty (`foldl_feed_eq_zero_iff`). Feeding is linear
(`foldl_feed_xor`), a shift loses nothing (`shift_eq_zero`), and since the polynomial has an even
number of terms the register keeps count, modulo two, of the ones it was fed
(`parity_foldl_feed`).
-/

namespace MeterLink

/-- The bits of a byte, the most significant first. -/
def bitsOf (b : UInt8) : List Bool := (List.range 8).map b.toBitVec.getMsbD

/-- The bits of a row of bytes, in the order in which they go over the link. -/
def bits (bs : Bytes) : List Bool := bs.flatMap bitsOf

theorem length_bitsOf (b : UInt8) : (bitsOf b).length = 8 := by simp [bitsOf]

theorem length_bits (bs : Bytes) : (bits bs).length = 8 * bs.length := by
  induction bs with
  | nil => rfl
  | cons b bs ih =>
    simp only [bits, List.flatMap_cons, List.length_append, length_bitsOf, List.length_cons] at ih ⊢
    omega

theorem bits_append (bs cs : Bytes) : bits (bs ++ cs) = bits bs ++ bits cs := List.flatMap_append

namespace Crc

/-! ## Shifts -/

theorem xor_xor_cancel (a b p : BitVec 16) : a ^^^ p ^^^ (b ^^^ p) = a ^^^ b := by
  rw [BitVec.xor_comm b p, ← BitVec.xor_assoc, BitVec.xor_assoc a p p, BitVec.xor_self,
    BitVec.xor_zero]

theorem shift_xor (a b : BitVec 16) : shift (a ^^^ b) = shift a ^^^ shift b := by
  simp only [shift, BitVec.msb_xor, BitVec.shiftLeft_xor_distrib]
  rcases ha : a.msb <;> rcases hb : b.msb <;> simp
  · ac_rfl
  · ac_rfl
  · exact (xor_xor_cancel _ _ _).symm

theorem shift_eq_zero {r : BitVec 16} (h : shift r = 0#16) : r = 0#16 := by
  have hlow : ∀ x : BitVec 16, (x <<< 1).getLsbD 0 = false := fun x => by simp
  unfold shift at h
  -- The lowest bit of the result tells whether the polynomial was divided out.
  split_ifs at h with hm
  · have h0 := congrArg (BitVec.getLsbD · 0) h
    simp only [BitVec.getLsbD_xor, hlow] at h0
    exact absurd h0 (by decide)
  · apply BitVec.eq_of_getMsbD_eq
    intro i hi
    rcases i with _ | i
    · simpa [BitVec.msb_eq_getMsbD_zero] using hm
    · have hi' : (r <<< 1).getMsbD i = false := by rw [h, BitVec.getMsbD_zero]
      simpa [show i < 16 by omega] using hi'

theorem repeat_shift_eq_zero {n : Nat} {r : BitVec 16} (h : Nat.repeat shift n r = 0#16) :
    r = 0#16 := by
  induction n with
  | zero => exact h
  | succ n ih => exact ih (shift_eq_zero h)

theorem repeat_shift_zero (n : Nat) : Nat.repeat shift n 0#16 = 0#16 := by
  induction n with
  | zero => rfl
  | succ n ih =>
    rw [Nat.repeat, ih]
    rfl

theorem repeat_shift_succ (n : Nat) (r : BitVec 16) :
    Nat.repeat shift (n + 1) r = Nat.repeat shift n (shift r) := by
  induction n with
  | zero => rfl
  | succ n ih => rw [Nat.repeat, ih, Nat.repeat]

/-! ## Bits at the top of the register -/

/-- A bit in the highest place. -/
def top (b : Bool) : BitVec 16 := if b then 0x8000#16 else 0#16

/-- Bits in the highest places, the first one highest. -/
def lead : List Bool → BitVec 16
  | [] => 0#16
  | b :: bs => top b ^^^ (lead bs >>> 1)

theorem top_xor (a b : Bool) : top (a ^^ b) = top a ^^^ top b := by
  cases a <;> cases b <;> rfl

theorem getMsbD_top (b : Bool) (i : Nat) : (top b).getMsbD i = (decide (i = 0) && b) := by
  cases b with
  | false => simp [top]
  | true =>
    rw [top, if_pos rfl, show 0x8000#16 = BitVec.twoPow 16 15 from rfl, BitVec.getMsbD_twoPow]
    simp

theorem getMsbD_lead (bs : List Bool) {i : Nat} (hi : i < 16) :
    (lead bs).getMsbD i = bs[i]?.getD false := by
  induction bs generalizing i with
  | nil => simp [lead]
  | cons b bs ih =>
    rcases i with _ | i
    · simp [lead, getMsbD_top, BitVec.getMsbD_ushiftRight]
    · have := ih (i := i) (by omega)
      simp [lead, getMsbD_top, BitVec.getMsbD_ushiftRight, hi, this]

theorem lead_eq_zero {bs : List Bool} (hlen : bs.length ≤ 16) (h : lead bs = 0#16) :
    true ∉ bs := by
  intro hmem
  obtain ⟨i, hi, hbit⟩ := List.getElem_of_mem hmem
  have := getMsbD_lead bs (i := i) (by omega)
  rw [h, BitVec.getMsbD_zero, List.getElem?_eq_getElem hi, hbit] at this
  exact absurd this (by simp)

theorem shift_ushiftRight {r : BitVec 16} (h : r.getMsbD 15 = false) : shift (r >>> 1) = r := by
  have hm : (r >>> 1).msb = false := by
    simp [BitVec.msb_eq_getMsbD_zero, BitVec.getMsbD_ushiftRight]
  rw [shift, hm, if_neg (by simp)]
  apply BitVec.eq_of_getMsbD_eq
  intro i hi
  by_cases hlast : i = 15
  · subst hlast
    simp [h]
  · simp [BitVec.getMsbD_ushiftRight, show i + 1 < 16 by omega]

/-! ## Feeding bits -/

/-- Takes one bit into the register. -/
def feed (r : BitVec 16) (b : Bool) : BitVec 16 := shift (r ^^^ top b)

theorem feed_xor (r s : BitVec 16) (a b : Bool) :
    feed (r ^^^ s) (a ^^ b) = feed r a ^^^ feed s b := by
  rw [feed, feed, feed, ← shift_xor, top_xor]
  congr 1
  ac_rfl

theorem foldl_feed_xor : ∀ (as bs : List Bool) (r s : BitVec 16), as.length = bs.length →
    (List.zipWith (· ^^ ·) as bs).foldl feed (r ^^^ s) = as.foldl feed r ^^^ bs.foldl feed s
  | [], [], _, _, _ => rfl
  | a :: as, b :: bs, r, s, h => by
    simp only [List.zipWith_cons_cons, List.foldl_cons, feed_xor]
    exact foldl_feed_xor as bs _ _ (by simpa using h)

/-- Up to sixteen bits can be put at the top of the register at once. -/
theorem foldl_feed_eq_repeat : ∀ (bs : List Bool) (r : BitVec 16), bs.length ≤ 16 →
    bs.foldl feed r = Nat.repeat shift bs.length (r ^^^ lead bs)
  | [], r, _ => by simp [lead, Nat.repeat]
  | b :: bs, r, h => by
    have hlen : bs.length ≤ 15 := by
      rw [List.length_cons] at h
      omega
    -- The bits still to come stay clear of the polynomial while they move up by one place.
    have hlow : (lead bs).getMsbD 15 = false := by
      rw [getMsbD_lead bs (by omega), List.getElem?_eq_none (by omega), Option.getD_none]
    rw [List.foldl_cons, foldl_feed_eq_repeat bs _ (by omega), List.length_cons, repeat_shift_succ,
      lead, ← BitVec.xor_assoc, shift_xor, shift_ushiftRight hlow, feed]

theorem foldl_feed_false : ∀ (bs : List Bool) (r : BitVec 16), true ∉ bs →
    bs.foldl feed r = Nat.repeat shift bs.length r
  | [], _, _ => rfl
  | b :: bs, r, h => by
    rw [List.mem_cons, not_or] at h
    have hb : b = false := by simpa using Ne.symm h.1
    subst hb
    rw [List.foldl_cons, foldl_feed_false bs _ h.2, List.length_cons, repeat_shift_succ, feed, top,
      if_neg (by simp), BitVec.xor_zero]

theorem lead_bitsOf (b : UInt8) : lead (bitsOf b) = b.toBitVec.setWidth 16 <<< 8 := by
  apply BitVec.eq_of_getMsbD_eq
  intro i hi
  rw [getMsbD_lead _ hi]
  by_cases h8 : i < 8
  · simp [bitsOf, h8]
  · simp [bitsOf, h8, BitVec.getMsbD_of_ge b.toBitVec i (by omega)]

theorem step_eq_foldl (r : BitVec 16) (b : UInt8) : step r b = (bitsOf b).foldl feed r := by
  rw [foldl_feed_eq_repeat _ _ (by simp [length_bitsOf]), length_bitsOf, lead_bitsOf, step]

theorem extend_eq_foldl (r : BitVec 16) (bs : Bytes) : extend r bs = (bits bs).foldl feed r := by
  induction bs generalizing r with
  | nil => rfl
  | cons b bs ih =>
    simp only [extend, bits, List.foldl_cons, List.flatMap_cons, List.foldl_append] at ih ⊢
    rw [ih, step_eq_foldl]

/-- Sixteen bits empty the register exactly when they are what it held. -/
theorem foldl_feed_eq_zero_iff {bs : List Bool} (h : bs.length = 16) (r : BitVec 16) :
    bs.foldl feed r = 0#16 ↔ r = lead bs := by
  rw [foldl_feed_eq_repeat bs r (Nat.le_of_eq h)]
  refine ⟨fun h0 => BitVec.xor_eq_zero_iff.1 (repeat_shift_eq_zero h0), fun hr => ?_⟩
  rw [hr, BitVec.xor_self, repeat_shift_zero]

/-! ## Parity -/

/-- Whether the register holds an odd number of ones. -/
def parity (r : BitVec 16) : Bool := (List.range 16).foldr (fun i p => r.getMsbD i ^^ p) false

theorem parity_xor (r s : BitVec 16) : parity (r ^^^ s) = (parity r ^^ parity s) := by
  unfold parity
  induction List.range 16 with
  | nil => rfl
  | cons i is ih =>
    rw [List.foldr_cons, List.foldr_cons, List.foldr_cons, ih, BitVec.getMsbD_xor, Bool.xor_assoc,
      Bool.xor_assoc, Bool.xor_left_comm (s.getMsbD i)]

/-- A one that is shifted out is made up for by the three ones of the polynomial. -/
theorem parity_shift (r : BitVec 16) : parity (shift r) = parity r := by
  have hl : parity (r <<< 1) = (r.msb ^^ parity r) := by
    simp [parity, List.range_succ, BitVec.msb_eq_getMsbD_zero]
  unfold shift
  split_ifs with hm
  · rw [parity_xor, hl, hm]
    cases parity r <;> decide
  · rw [hl]
    simp [hm]

theorem parity_feed (r : BitVec 16) (b : Bool) : parity (feed r b) = (parity r ^^ b) := by
  rw [feed, parity_shift, parity_xor]
  cases b <;> congr 1

theorem parity_foldl_feed (bs : List Bool) (r : BitVec 16) :
    parity (bs.foldl feed r) = (parity r ^^ decide (Odd (bs.count true))) := by
  induction bs generalizing r with
  | nil => simp
  | cons b bs ih =>
    rw [List.foldl_cons, ih, parity_feed]
    cases b with
    | false => simp
    | true =>
      have hodd : decide (Odd (bs.count true + 1)) = !decide (Odd (bs.count true)) := by
        rw [← decide_not]
        exact decide_eq_decide.2 Nat.odd_add_one
      rw [List.count_cons_self, hodd]
      cases parity r <;> simp

end Crc

end MeterLink

/-!
# Bytes of a number

A number of fixed width goes on the wire with its least significant byte first (most fields) or
last (addresses and checksums). Both writers take the width, drop what does not fit, and the
readers undo them: `ofLittleEndian_littleEndian`, `ofBigEndian_bigEndian`.
-/

namespace MeterLink

/-- The bytes of a message or of a part of one. -/
abbrev Bytes := List UInt8

/-- The `n` low bytes of `v`, least significant first. -/
def littleEndian : Nat → Nat → Bytes
  | 0, _ => []
  | n + 1, v => UInt8.ofNat v :: littleEndian n (v / 256)

/-- The number whose bytes are given least significant first. -/
def ofLittleEndian : Bytes → Nat
  | [] => 0
  | b :: bs => b.toNat + 256 * ofLittleEndian bs

/-- The `n` low bytes of `v`, most significant first. -/
def bigEndian (n v : Nat) : Bytes :=
  (littleEndian n v).reverse

/-- The number whose bytes are given most significant first. -/
def ofBigEndian (bs : Bytes) : Nat :=
  ofLittleEndian bs.reverse

@[simp] theorem length_littleEndian (n v : Nat) : (littleEndian n v).length = n := by
  induction n generalizing v with
  | zero => rfl
  | succ n ih => simp [littleEndian, ih]

@[simp] theorem length_bigEndian (n v : Nat) : (bigEndian n v).length = n := by
  simp [bigEndian]

/-- One more byte takes 256 times as many numbers. -/
theorem capacity_succ (n : Nat) : 1 <<< (8 * (n + 1)) = 256 * 1 <<< (8 * n) := by
  have h := Nat.shiftLeft_eq (1 <<< (8 * n)) 8
  rw [Nat.mul_succ, Nat.shiftLeft_add]
  omega

theorem ofLittleEndian_littleEndian (n v : Nat) :
    ofLittleEndian (littleEndian n v) = v % 1 <<< (8 * n) := by
  induction n generalizing v with
  | zero => simp [littleEndian, ofLittleEndian, Nat.mod_one]
  | succ n ih =>
    simp only [littleEndian, ofLittleEndian, ih, capacity_succ, Nat.mod_mul]
    simp

theorem ofBigEndian_bigEndian (n v : Nat) :
    ofBigEndian (bigEndian n v) = v % 1 <<< (8 * n) := by
  simp [ofBigEndian, bigEndian, ofLittleEndian_littleEndian]

theorem ofLittleEndian_lt (bs : Bytes) : ofLittleEndian bs < 1 <<< (8 * bs.length) := by
  induction bs with
  | nil => simp [ofLittleEndian]
  | cons b bs ih =>
    have hb := b.toNat_lt
    simp only [ofLittleEndian, List.length_cons, capacity_succ]
    omega

theorem littleEndian_ofLittleEndian (bs : Bytes) :
    littleEndian bs.length (ofLittleEndian bs) = bs := by
  induction bs with
  | nil => rfl
  | cons b bs ih =>
    have hb := b.toNat_lt
    have hd : (b.toNat + 256 * ofLittleEndian bs) / 256 = ofLittleEndian bs := by omega
    have hm : UInt8.ofNat (b.toNat + 256 * ofLittleEndian bs) = b := by
      apply UInt8.toNat_inj.1
      simp
    simp only [ofLittleEndian, List.length_cons, littleEndian, hd, hm, ih]

theorem ofBigEndian_lt (bs : Bytes) : ofBigEndian bs < 1 <<< (8 * bs.length) := by
  have h := ofLittleEndian_lt bs.reverse
  rwa [List.length_reverse] at h

theorem bigEndian_ofBigEndian (bs : Bytes) : bigEndian bs.length (ofBigEndian bs) = bs := by
  rw [bigEndian, ofBigEndian, ← List.length_reverse, littleEndian_ofLittleEndian, List.reverse_reverse]

/-! ## Words -/

theorem ofLittleEndian_u16 (v : UInt16) :
    UInt16.ofNat (ofLittleEndian (littleEndian 2 v.toNat)) = v := by
  have hv : v.toNat < 1 <<< (8 * 2) := v.toNat_lt
  rw [ofLittleEndian_littleEndian, Nat.mod_eq_of_lt hv, UInt16.ofNat_toNat]

theorem ofLittleEndian_u32 (v : UInt32) :
    UInt32.ofNat (ofLittleEndian (littleEndian 4 v.toNat)) = v := by
  have hv : v.toNat < 1 <<< (8 * 4) := v.toNat_lt
  rw [ofLittleEndian_littleEndian, Nat.mod_eq_of_lt hv, UInt32.ofNat_toNat]

theorem littleEndian_u16 {bs : Bytes} (h : bs.length = 2) :
    littleEndian 2 (UInt16.ofNat (ofLittleEndian bs)).toNat = bs := by
  have hlt : ofLittleEndian bs < 1 <<< (8 * 2) := h ▸ ofLittleEndian_lt bs
  have hmod : (UInt16.ofNat (ofLittleEndian bs)).toNat = ofLittleEndian bs := Nat.mod_eq_of_lt hlt
  rw [hmod, ← h, littleEndian_ofLittleEndian]

theorem littleEndian_u32 {bs : Bytes} (h : bs.length = 4) :
    littleEndian 4 (UInt32.ofNat (ofLittleEndian bs)).toNat = bs := by
  have hlt : ofLittleEndian bs < 1 <<< (8 * 4) := h ▸ ofLittleEndian_lt bs
  have hmod : (UInt32.ofNat (ofLittleEndian bs)).toNat = ofLittleEndian bs := Nat.mod_eq_of_lt hlt
  rw [hmod, ← h, littleEndian_ofLittleEndian]

end MeterLink

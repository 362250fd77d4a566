import MeterLink.Bytes

/-!
# The frame checksum

A 16-bit cyclic redundancy check with the polynomial x¹⁶ + x¹² + x⁵ + 1, most significant bit
first, from a register of ones and without a final inversion. The register is shifted bit by bit,
so that each step is linear over `^^^`.
-/

namespace MeterLink.Crc

/-- The polynomial without its leading term. -/
def polynomial : BitVec 16 := 0x1021#16

/-- Shifts the register by one bit and divides out the polynomial. -/
def shift (r : BitVec 16) : BitVec 16 :=
  if r.msb then (r <<< 1) ^^^ polynomial else r <<< 1

/-- Takes a byte into the register: its bits enter at the top, then eight shifts. -/
def step (r : BitVec 16) (b : UInt8) : BitVec 16 :=
  Nat.repeat shift 8 (r ^^^ (b.toBitVec.setWidth 16 <<< 8))

/-- The register after the bytes have been taken in, from a given register. -/
def extend (r : BitVec 16) (bs : Bytes) : BitVec 16 :=
  bs.foldl step r

/-- The checksum of a row of bytes. -/
def checksum (bs : Bytes) : UInt16 :=
  ⟨extend 0xFFFF#16 bs⟩

/-- The bytes of a frame that its checksum covers: all but the delimiter and the checksum. -/
def covered (frame : Bytes) : Bytes :=
  (frame.drop 1).take (frame.length - 3)

/-- The checksum that a frame should carry. -/
def ofFrame (frame : Bytes) : UInt16 :=
  checksum (covered frame)

end MeterLink.Crc

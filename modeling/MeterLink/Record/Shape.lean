/-!
# Shapes of records

A payload does not say what it is: the reader knows the object that was asked for, and the
object has a shape. A shape has an exact size unless it takes whatever is left of the payload. Sizes
are reckoned in words of 64 bits, where that of an array of 1 <<< 63 numbers or more wraps around.
-/

namespace MeterLink

/-- A named field of a packed record and the number of bits it takes. -/
structure BitField where
  name : String
  bits : Nat
deriving DecidableEq, Repr

/-- How many bytes a text or a block takes. -/
inductive Extent where
  | fixed (n : Nat)
  /-- All that is left of the payload. -/
  | remainder
deriving DecidableEq, Repr

/-- The layout of a record. -/
inductive Shape where
  | u8
  | u16
  | u32
  | i32
  | ascii (extent : Extent)
  | bits (layout : List BitField)
  /-- A fixed count of 16-bit numbers. -/
  | u16s (count : Nat)
  | block (extent : Extent)
  /-- The seven bytes of the meter's clock. -/
  | clock
  /-- An entry of the log of payments. -/
  | payment
  | empty
deriving DecidableEq, Repr

/-- Bits that a layout takes altogether. -/
def totalBits : List BitField → Nat
  | [] => 0
  | f :: fs => f.bits + totalBits fs

/-- What a word of 64 bits keeps of a number. -/
def wrapped (n : Nat) : Nat := n % 1 <<< 64

namespace Shape

/-- An object without a known layout is left as it came. -/
def raw : Shape := .block .remainder

def name : Shape → String
  | .u8 => "u1"
  | .u16 => "u2le"
  | .u32 => "u4le"
  | .i32 => "s4le"
  | .ascii _ => "ascii"
  | .bits _ => "bit_packed"
  | .u16s _ => "u2le_array"
  | .block .remainder => "raw"
  | .block (.fixed _) => "block"
  | .clock => "time"
  | .payment => "transaction_details"
  | .empty => "empty"

/-- The exact number of bytes, if the shape fixes it. -/
def size? : Shape → Option Nat
  | .u8 => some 1
  | .u16 => some 2
  | .u32 => some 4
  | .i32 => some 4
  | .ascii (.fixed n) => some n
  | .block (.fixed n) => some n
  | .ascii .remainder => none
  | .block .remainder => none
  | .bits layout => some (totalBits layout / 8)
  | .u16s n => some (2 * n)
  | .clock => some 7
  | .payment => some 16
  | .empty => some 0

/-- The number of bytes that a shape of fixed size takes from a payload. -/
def width? : Shape → Option Nat
  | .u16s n => some (wrapped (2 * n))
  | shape => shape.size?

/-- The name of the shape together with its size. -/
def text : Shape → String
  | .ascii (.fixed n) => s!"ascii[{n}]"
  | .block (.fixed n) => s!"block[{n}]"
  | .u16s n => s!"u2le[{n}]"
  | .bits layout => "bits(" ++ ",".intercalate (layout.map fun f => s!"{f.name}:{f.bits}") ++ ")"
  | shape => shape.name

end Shape

/-- The byte of signal quality. -/
def signalLayout : List BitField := [⟨"network_operator", 3⟩, ⟨"csq", 5⟩]

/-- The byte that masks tariff thresholds; the first rate has the least significant bit. -/
def thresholdMaskLayout : List BitField :=
  [⟨"rate8", 1⟩, ⟨"rate7", 1⟩, ⟨"rate6", 1⟩, ⟨"rate5", 1⟩, ⟨"rate4", 1⟩, ⟨"rate3", 1⟩,
    ⟨"rate2", 1⟩, ⟨"rate1", 1⟩]

end MeterLink

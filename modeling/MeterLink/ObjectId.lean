import MeterLink.Text.Numeral

/-!
# Object identifiers

Each value that a meter holds has a 24-bit identifier. A person writes it as up to six
hexadecimal digits, with or without `0x`, or as three groups divided by points, the most
significant byte first in both. Every form that is printed is read back as the same identifier.
-/

namespace MeterLink

/-- The identifier of a value held by the meter. -/
structure ObjectId where
  code : BitVec 24
deriving DecidableEq, Repr, BEq, ReflBEq, LawfulBEq

namespace ObjectId

/-- The identifier with the low 24 bits of a number. -/
def ofNat (n : Nat) : ObjectId := ⟨BitVec.ofNat 24 n⟩

def toNat (id : ObjectId) : Nat := id.code.toNat

/-- The identifier with this number, if 24 bits hold it. -/
def ofNat? (n : Nat) : Option ObjectId :=
  if n < 0x1000000 then some (ofNat n) else none

def ofBytes (b₀ b₁ b₂ : UInt8) : ObjectId := ofNat (ofBigEndian [b₀, b₁, b₂])

/-- The three bytes on the wire, most significant first. -/
def bytes (id : ObjectId) : Bytes := bigEndian 3 id.toNat

/-- Six hexadecimal digits. -/
def digits (id : ObjectId) : List Char := Hex.ofBytes id.bytes

def text (id : ObjectId) : String := String.ofList id.digits

instance : ToString ObjectId := ⟨text⟩

/-- Three groups of two upper-case digits, divided by points. -/
def triplet (id : ObjectId) : String :=
  ".".intercalate (id.bytes.map fun b => String.ofList (Hex.upperOfByte b))

/-- One group of a triplet: a numeral of one or two characters. -/
def group? (s : List Char) : Option Nat :=
  if s.length ≤ 2 then hexNumeral? (dropPlus s) else none

/-- The digits of the plain form, after one leading `0x` or `0X`. -/
def unprefixed : List Char → List Char
  | '0' :: 'x' :: rest => rest
  | '0' :: 'X' :: rest => rest
  | s => s

/-- Reads either form from a text without outer blanks. -/
def ofTrimmed? (s : List Char) : Option ObjectId :=
  if '.' ∈ s then
    match pieces '.' s with
    | [a, b, c] => do
      let hi ← group? a
      let mid ← group? b
      let lo ← group? c
      return ofNat (65536 * hi + 256 * mid + lo)
    | _ => none
  else
    let digits := unprefixed s
    if digits.length ≤ 6 then (hexNumeral? (dropPlus digits)).map ofNat else none

/-- Reads an identifier; outer blanks do not count. -/
def parse? (s : String) : Option ObjectId :=
  ofTrimmed? (trimBlank s.toList)

/-- What is said of a text that is no identifier. -/
def complaint (s : String) : String :=
  "'" ++ s ++ "' is not an object id (expected 6 hex digits, XX.XX.XX or 0x-prefixed hex)"

end ObjectId

end MeterLink

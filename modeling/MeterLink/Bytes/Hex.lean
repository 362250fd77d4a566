import MeterLink.Bytes
import MeterLink.Text.Blank

/-!
# Bytes as hexadecimal text

Each byte is written as two lower-case digits, and digits of either case are read. The reader
works on the UTF-8 form of the text and tells two faults apart, an odd number of bytes and the
first byte that is no digit.

The spaced form, in which a person types a message, may hold blanks anywhere and start with `0x`.
-/

namespace MeterLink.Hex

/-- The lower-case digit for a value below sixteen. -/
def digit (v : Nat) : Char :=
  if v < 10 then Char.ofNat (48 + v) else Char.ofNat (87 + v)

/-- The upper-case digit for a value below sixteen. -/
def upperDigit (v : Nat) : Char :=
  if v < 10 then Char.ofNat (48 + v) else Char.ofNat (55 + v)

/-- The value of the digit of either case with code `n`. -/
def valueOfCode? (n : Nat) : Option Nat :=
  if 48 ≤ n ∧ n ≤ 57 then some (n - 48)
  else if 97 ≤ n ∧ n ≤ 102 then some (n - 87)
  else if 65 ≤ n ∧ n ≤ 70 then some (n - 55)
  else none

def digitValue? (c : Char) : Option Nat :=
  valueOfCode? c.toNat

/-- The two digits of a byte. -/
def ofByte (b : UInt8) : List Char :=
  [digit (b.toNat / 16), digit (b.toNat % 16)]

/-- The two digits of a byte, in upper case. -/
def upperOfByte (b : UInt8) : List Char :=
  [upperDigit (b.toNat / 16), upperDigit (b.toNat % 16)]

def ofBytes (bs : Bytes) : List Char :=
  bs.flatMap ofByte

/-- The text of a message, two digits a byte. -/
def encode (bs : Bytes) : String :=
  String.ofList (ofBytes bs)

/-- The digits of a number without leading zeros. -/
def ofNat (n : Nat) : List Char :=
  Nat.toDigits 16 n

/-- The digits of a number, filled up with zeros to at least `width`. -/
def padded (width n : Nat) : List Char :=
  List.replicate (width - (ofNat n).length) '0' ++ ofNat n

/-- Why a text is no row of bytes. -/
inductive Fault where
  /-- The text has an odd number of bytes. -/
  | oddLength
  /-- The first byte that is no digit, and its offset. -/
  | notDigit (byte : UInt8) (offset : Nat)
deriving DecidableEq, Repr

/-- A character between single quotes, with escapes for what would not show. -/
def quoted (c : Char) : String :=
  let shown :=
    if c = '\x00' then "\\0"
    else if c = '\t' then "\\t"
    else if c = '\n' then "\\n"
    else if c = '\r' then "\\r"
    else if c = '\'' then "\\'"
    else if c = '\\' then "\\\\"
    else if c.toNat < 0x20 ∨ (0x7f ≤ c.toNat ∧ c.toNat ≤ 0xa0) ∨ c.toNat = 0xad then
      "\\u\x7b" ++ String.ofList (ofNat c.toNat) ++ "\x7d"
    else c.toString
  "'" ++ shown ++ "'"

def Fault.message : Fault → String
  | .oddLength => "Odd number of digits"
  | .notDigit byte offset =>
    "Invalid character " ++ quoted (Char.ofNat byte.toNat) ++ " at position " ++ toString offset

/-- Reads pairs of digits; `offset` counts the bytes before them. -/
def decodePairs (offset : Nat) : Bytes → Except Fault Bytes
  | hi :: lo :: rest =>
    match valueOfCode? hi.toNat, valueOfCode? lo.toNat with
    | some h, some l => (decodePairs (offset + 2) rest).map (UInt8.ofNat (16 * h + l) :: ·)
    | none, _ => .error (.notDigit hi offset)
    | some _, none => .error (.notDigit lo (offset + 1))
  | _ => .ok []

/-- Reads a row of bytes, two digits each. -/
def decode (text : List Char) : Except Fault Bytes :=
  let codes := (String.ofList text).toUTF8.toList
  if codes.length % 2 = 1 then .error .oddLength else decodePairs 0 codes

/-- The digits of a typed message: blanks go first, and then one leading `0x`. -/
def unspaced (text : List Char) : List Char :=
  match text.filter (fun c => !isBlank c) with
  | '0' :: 'x' :: rest => rest
  | digits => digits

/-- Reads a message as a person types it. -/
def decodeSpaced (text : String) : Except Fault Bytes :=
  decode (unspaced text.toList)

end MeterLink.Hex

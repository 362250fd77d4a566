import MeterLink.Bytes.Hex

/-!
# Numerals

Readers of unsigned numerals over a list of characters. Those that take a sign take one plus in
front of at least one digit and no minus.
-/

namespace MeterLink

/-- The value of a decimal digit; only the ASCII digits count. -/
def decimalDigit? (c : Char) : Option Nat :=
  if '0' ≤ c ∧ c ≤ '9' then some (c.toNat - 48) else none

def isDecimalDigit (c : Char) : Bool :=
  (decimalDigit? c).isSome

/-- The value of digits in a base, most significant first. -/
def ofDigits (base : Nat) (ds : List Nat) : Nat :=
  ds.foldl (fun acc d => base * acc + d) 0

/-- The value of a nonempty row of decimal digits. -/
def decimalNumeral? (s : List Char) : Option Nat :=
  if s.isEmpty then none else (s.mapM decimalDigit?).map (ofDigits 10)

/-- The value of a nonempty row of hexadecimal digits. -/
def hexNumeral? (s : List Char) : Option Nat :=
  if s.isEmpty then none else (s.mapM Hex.digitValue?).map (ofDigits 16)

/-- The text after one leading plus. -/
def dropPlus : List Char → List Char
  | '+' :: rest => rest
  | s => s

/-- A decimal numeral of at most `limit`, with or without a plus. -/
def boundedNumeral? (limit : Nat) (s : List Char) : Option Nat :=
  (decimalNumeral? (dropPlus s)).filter (· ≤ limit)

/-- Decimal digits of `n`, filled up with zeros to at least `width`. -/
def paddedDecimal (width n : Nat) : List Char :=
  List.replicate (width - (Nat.toDigits 10 n).length) '0' ++ Nat.toDigits 10 n

/-- The pieces between the separators, one more than there are separators. -/
def pieces (sep : Char) : List Char → List (List Char)
  | [] => [[]]
  | c :: rest =>
    match pieces sep rest with
    | p :: ps => if c = sep then [] :: p :: ps else (c :: p) :: ps
    | [] => [[c]]

end MeterLink

import MeterLink.Text.Blank
import MeterLink.Text.Numeral

/-!
# Amounts of money

An amount is a whole number of the meter's units, of which 100 000 make one. It is written with
as few places as it needs and read with at most five; the least amount of all is the only one
whose text is not read back.
-/

namespace MeterLink

/-- An amount of money, counted in the units of the meter. -/
structure Amount where
  raw : Int64
deriving DecidableEq, Repr

/-- Why a text is no amount. -/
inductive AmountFault where
  | noDigits
  | notDecimal
  | tooManyPlaces
  | tooLarge
deriving DecidableEq, Repr

def AmountFault.reason : AmountFault → String
  | .noDigits => "no digits"
  | .notDecimal => "not a plain decimal number"
  | .tooManyPlaces => "meters store at most 5 decimal places"
  | .tooLarge => "too large"

/-- What is said of a text that is no amount. -/
def AmountFault.message (fault : AmountFault) (input : String) : String :=
  "invalid amount '" ++ input ++ "': " ++ fault.reason

namespace Amount

/-- Units that make one. -/
def scale : Nat := 100000

/-- Decimal places of a unit. -/
def places : Nat := 5

def ofUnits (units : Int) : Amount := ⟨Int64.ofInt units⟩

/-- The amount as a number of units. -/
def units (a : Amount) : Int := a.raw.toInt

theorem ofUnits_units (a : Amount) : ofUnits a.units = a :=
  congrArg Amount.mk (Int64.ofInt_toInt a.raw)

theorem units_ofUnits {n : Int} (hlo : -0x8000000000000000 ≤ n) (hhi : n < 0x8000000000000000) :
    (ofUnits n).units = n :=
  Int64.toInt_ofInt_of_le hlo hhi

def zero : Amount := ofUnits 0

def one : Amount := ofUnits scale

instance : LE Amount := ⟨fun a b => a.units ≤ b.units⟩

instance (a b : Amount) : Decidable (a ≤ b) := inferInstanceAs (Decidable (a.units ≤ b.units))

instance : LT Amount := ⟨fun a b => a.units < b.units⟩

instance (a b : Amount) : Decidable (a < b) := inferInstanceAs (Decidable (a.units < b.units))

/-- The places after the point, without the zeros at their end. -/
def fractionDigits (frac : Nat) : List Char :=
  ((paddedDecimal places frac).reverse.dropWhile (· = '0')).reverse

/-- The text of a number of units without its sign. -/
def magnitudeText (n : Nat) : List Char :=
  Nat.toDigits 10 (n / scale) ++
    if n % scale = 0 then [] else '.' :: fractionDigits (n % scale)

def digits (a : Amount) : List Char :=
  (if a.units < 0 then ['-'] else []) ++ magnitudeText a.units.natAbs

/-- The amount in the fewest decimal places. -/
def text (a : Amount) : String := String.ofList a.digits

instance : ToString Amount := ⟨text⟩

/-- The parts before and after the first point. -/
def splitPoint (s : List Char) : List Char × List Char :=
  (s.takeWhile (· ≠ '.'), (s.dropWhile (· ≠ '.')).drop 1)

/-- A number of units, if an amount can hold it. -/
def bounded (n : Nat) : Except AmountFault Nat :=
  if n < 0x8000000000000000 then .ok n else .error .tooLarge

/-- The number of units of a text without its sign; no number on the way to it is too large. -/
def readMagnitude (s : List Char) : Except AmountFault Nat :=
  let (whole, frac) := splitPoint s
  if whole.isEmpty && frac.isEmpty then .error .noDigits
  else if !(whole ++ frac).all isDecimalDigit then .error .notDecimal
  else if places < frac.length then .error .tooManyPlaces
  else do
    let padded := frac ++ List.replicate (places - frac.length) '0'
    let ones ← bounded ((decimalNumeral? whole).getD 0)
    let units ← bounded (ones * scale)
    bounded (units + (decimalNumeral? padded).getD 0)

/-- Reads an amount: a sign, digits and a point with up to five places, each of them optional. -/
def parse (s : String) : Except AmountFault Amount :=
  match trimBlank s.toList with
  | '-' :: rest => (readMagnitude rest).map fun n : Nat => ofUnits (-(n : Int))
  | '+' :: rest => (readMagnitude rest).map fun n : Nat => ofUnits (n : Int)
  | body => (readMagnitude body).map fun n : Nat => ofUnits (n : Int)

/-- The units as an unsigned field of the meter. -/
def unsigned? (a : Amount) : Option UInt32 :=
  if 0 ≤ a.units ∧ a.units < 0x100000000 then some (UInt32.ofNat a.units.toNat) else none

/-- The units as a signed field of the meter. -/
def signed? (a : Amount) : Option Int32 :=
  if -0x80000000 ≤ a.units ∧ a.units < 0x80000000 then some (Int32.ofInt a.units) else none

end Amount

end MeterLink

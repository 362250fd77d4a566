import MeterLink.Text.Numeral

/-!
# Readers

A reader takes a value from the front of a text, or fails and leaves the text to another reader.
-/

namespace MeterLink

/-- A reader takes a value from the front of a text, or fails. -/
abbrev Reader := StateT (List Char) Option

namespace Reader

variable {α : Type}

/-- The next character, which must have the property. -/
def charThat (p : Char → Bool) : Reader Char := do
  match ← get with
  | c :: rest => if p c then set rest; return c else failure
  | [] => failure

/-- The next character, if it is one of these. -/
def charIn (accepted : List Char) : Reader Char :=
  charThat fun c => c ∈ accepted

/-- The longest run of characters with the property. -/
def run (p : Char → Bool) : Reader (List Char) := do
  let s ← get
  set (s.dropWhile p)
  return s.takeWhile p

/-- Exactly this text. -/
def exactly (text : List Char) : Reader Unit := do
  let s ← get
  if text.isPrefixOf s then set (s.drop text.length) else failure

/-- The end of the text. -/
def atEnd : Reader Unit := do
  match ← get with
  | [] => return
  | _ => failure

/-- The decimal digits at the front, at most `limit` of them. -/
def digits (limit : Nat) : Reader (List Char) := do
  let s ← get
  let ds := (s.take limit).takeWhile isDecimalDigit
  set (s.drop ds.length)
  return ds

/-- A number of at least one digit and at most `limit`. -/
def number (limit : Nat) : Reader Nat := do
  StateT.lift (decimalNumeral? (← digits limit))

/-- A number of exactly `count` digits within bounds. -/
def fixedNumber (count low high : Nat) : Reader Nat := do
  let ds ← digits count
  if ds.length ≠ count then failure
  let n ← StateT.lift (decimalNumeral? ds)
  if low ≤ n ∧ n ≤ high then return n else failure

/-- Items one after another, each of which takes something; at most `fuel` of them. -/
def manyFrom (item : Reader α) : Nat → List Char → List α × List Char
  | 0, s => ([], s)
  | fuel + 1, s =>
    match StateT.run item s with
    | some (a, rest) =>
      if rest.length < s.length then
        let (as, rest) := manyFrom item fuel rest
        (a :: as, rest)
      else ([], s)
    | none => ([], s)

/-- Items one after another until the reader of an item fails or takes nothing. -/
def many (item : Reader α) : Reader (List α) :=
  fun s => some (manyFrom item s.length s)

/-- One or more items with separators between them. -/
def separated (item : Reader α) (separator : Reader Unit) : Reader (List α) := do
  let first ← item
  let rest ← many (do separator; item)
  return first :: rest

/-- What a reader takes from a whole text. -/
def readAll? (item : Reader α) (text : List Char) : Option α :=
  (StateT.run (do let a ← item; atEnd; return a : Reader α) text).map Prod.fst

end Reader

end MeterLink

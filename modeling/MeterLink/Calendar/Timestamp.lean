import MeterLink.Calendar.Instant
import MeterLink.Text.Blank
import MeterLink.Text.Reader

/-!
# Timestamps as text

An instant is written as `2024-05-01T12:00:00`, with a fraction of three, six or nine digits
where it has one, and a mark for UTC. Years of more than four digits and those before the year 0
have a sign. A leap second is the second sixty.

The reader is more lenient: any offset from UTC, a blank in place of the `T`, blanks before each
part, and fractions of any length.
-/

namespace MeterLink.Timestamp

/-- The four digits of a year, with a sign outside of the years 0 to 9999. -/
def yearText (y : Int) : List Char :=
  if 0 ≤ y ∧ y ≤ 9999 then paddedDecimal 4 y.natAbs
  else (if y < 0 then '-' else '+') :: paddedDecimal 4 y.natAbs

/-- The fraction of a second in as many groups of three digits as it needs. -/
def fractionText (nanos : Nat) : List Char :=
  if nanos = 0 then []
  else if nanos % 1000000 = 0 then '.' :: paddedDecimal 3 (nanos / 1000000)
  else if nanos % 1000 = 0 then '.' :: paddedDecimal 6 (nanos / 1000)
  else '.' :: paddedDecimal 9 nanos

def dateText (d : Date) : List Char :=
  yearText d.year ++ '-' :: paddedDecimal 2 d.month ++ '-' :: paddedDecimal 2 d.day

/-- The time of day; a leap second is the second sixty. -/
def timeText (t : Instant) : List Char :=
  let second := if t.nanos < 1000000000 then t.second else t.second + 1
  paddedDecimal 2 t.hour ++ ':' :: paddedDecimal 2 t.minute ++ ':' :: paddedDecimal 2 second ++
    fractionText (t.nanos % 1000000000)

/-- The instant in UTC without the mark for it. -/
def localText (t : Instant) : List Char :=
  dateText t.date ++ 'T' :: timeText t

/-- The instant with the offset `+00:00`. -/
def withOffset (t : Instant) : String := String.ofList (localText t ++ "+00:00".toList)

/-- The instant with the mark `Z`. -/
def withZulu (t : Instant) : String := String.ofList (localText t ++ ['Z'])

open Reader

def skipBlanks : Reader Unit :=
  modify (·.dropWhile isBlank)

/-- A number of one or two digits within bounds, after blanks. -/
def field (low high : Nat) : Reader Nat := do
  skipBlanks
  let n ← number 2
  if low ≤ n ∧ n ≤ high then return n else failure

/-- A year: four digits at most, or a sign and any number of digits. -/
def year : Reader Int := do
  skipBlanks
  let s ← get
  match s with
  | '-' :: rest => set rest; return -(← number rest.length : Int)
  | '+' :: rest => set rest; return (← number rest.length : Int)
  | _ => return (← number 4 : Int)

/-- A fraction in nanoseconds; digits beyond the ninth do not count. -/
def fraction : Reader Nat := do
  match ← get with
  | '.' :: rest =>
    set rest
    let ds ← digits 9
    if ds.isEmpty then failure
    modify (·.dropWhile isDecimalDigit)
    StateT.lift (decimalNumeral? (ds ++ List.replicate (9 - ds.length) '0'))
  | _ => return 0

/-- Hours and minutes of an offset, with colons or blanks or nothing between them. -/
def clockOffset : Reader Nat := do
  let hours ← digits 2
  if hours.length ≠ 2 then failure
  modify (·.dropWhile fun c => c = ':' || isBlank c)
  let minutes ← digits 2
  if minutes.length ≠ 2 then failure
  let h ← StateT.lift (decimalNumeral? hours)
  let m ← StateT.lift (decimalNumeral? minutes)
  if 60 ≤ m then failure
  return h * 3600 + m * 60

/-- The offset from UTC in seconds: a letter for none, or a signed clock offset. -/
def offset : Reader Int := do
  match ← get with
  | u :: t :: c :: rest =>
    if u.toUpper = 'U' ∧ t.toUpper = 'T' ∧ c.toUpper = 'C' then set rest; return 0
    else signed
  | _ => signed
where
  signed : Reader Int := do
    let sign ← charIn ['Z', 'z', '+', '-', '−']
    if sign = 'Z' ∨ sign = 'z' then return 0
    let seconds ← clockOffset
    return if sign = '+' then (seconds : Int) else -(seconds : Int)

/-- The years that timestamps may have. -/
def InRange (d : Date) : Prop := -262143 ≤ d.year ∧ d.year ≤ 262142

instance (d : Date) : Decidable (InRange d) := by unfold InRange; infer_instance

/-- A timestamp and the blanks after it. -/
def instant : Reader Instant := do
  let y ← year
  skipBlanks
  let _ ← charIn ['-']
  let mo ← field 1 12
  skipBlanks
  let _ ← charIn ['-']
  let d ← field 1 31
  let _ ← charIn ['T', 't', ' ']
  let h ← field 0 23
  skipBlanks
  let _ ← charIn [':']
  let mi ← field 0 59
  skipBlanks
  let _ ← charIn [':']
  let s ← field 0 60
  let nanos ← fraction
  skipBlanks
  let east ← offset
  skipBlanks
  let date : Date := ⟨y, mo, d⟩
  if ¬ date.IsValid ∨ ¬ InRange date ∨ 86400 ≤ east.natAbs then failure
  let leap := s = 60
  let start := Instant.ofDate date h mi (if leap then 59 else s)
  let t : Instant := ⟨start.seconds - east, if leap then nanos + 1000000000 else nanos⟩
  if ¬ InRange t.date then failure
  return t

/-- Reads a timestamp. -/
def parse? (s : String) : Option Instant :=
  readAll? instant s.toList

end MeterLink.Timestamp

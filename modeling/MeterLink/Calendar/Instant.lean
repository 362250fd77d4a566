import MeterLink.Calendar.Date

/-!
# Instants

An instant of UTC is a count of seconds since 1970 with a part of a second in nanoseconds. During
a leap second the seconds stand still on the fifty-ninth and the nanoseconds go on beyond 10⁹.
-/

namespace MeterLink

/-- An instant of UTC. -/
structure Instant where
  /-- Whole seconds since the start of 1970, leap seconds not counted. -/
  seconds : Int
  /-- The part of the second; from 10⁹ on, the instant lies in a leap second. -/
  nanos : Nat
deriving DecidableEq, Repr

namespace Instant

/-- Whole days since 1 January 1970. -/
def days (t : Instant) : Int := t.seconds / 86400

def date (t : Instant) : Date := .ofDays t.days

/-- Seconds since midnight. -/
def secondOfDay (t : Instant) : Nat := (t.seconds % 86400).toNat

def hour (t : Instant) : Nat := t.secondOfDay / 3600

def minute (t : Instant) : Nat := t.secondOfDay / 60 % 60

/-- The second of the minute, 59 also during a leap second. -/
def second (t : Instant) : Nat := t.secondOfDay % 60

def weekday (t : Instant) : Weekday := Date.weekdayOfDays t.days

/-- The instant without its part of a second. -/
def wholeSeconds (t : Instant) : Instant := ⟨t.seconds, 0⟩

/-- The start of a second of a day. -/
def ofDate (d : Date) (hour minute second : Nat) : Instant :=
  ⟨d.toDays * 86400 + (hour * 3600 + minute * 60 + second : Nat), 0⟩

end Instant

end MeterLink

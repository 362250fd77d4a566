import MeterLink.Client.Failure

/-!
# The two clocks of a meter

A meter counts seconds since the start of 2000 in 32 bits, and it has a clock of seven bytes
whose year counts from 2000. Both are converted to instants of UTC and back; parts of a second
are dropped.
-/

namespace MeterLink

namespace Instant

/-- The start of 2000, in seconds since 1970. -/
def meterEpoch : Int := 946684800

/-- The instant after so many seconds of the meter. -/
def ofMeterSeconds (s : UInt32) : Instant := ⟨meterEpoch + s.toNat, 0⟩

/-- The seconds of the meter at an instant, if 32 bits hold them. -/
def toMeterSeconds (t : Instant) : Except Failure UInt32 :=
  let s := t.seconds - meterEpoch
  if 0 ≤ s ∧ s < 0x100000000 then .ok (UInt32.ofNat s.toNat)
  else .error (.argument (.outsideMeterTime t))

end Instant

namespace ClockReading

/-- What the meter's clock shows at an instant. -/
def ofInstant (t : Instant) : Except Failure ClockReading :=
  let date := t.date
  if 2000 ≤ date.year ∧ date.year ≤ 2255 then
    .ok {
      year := UInt8.ofNat (date.year - 2000).toNat
      month := UInt8.ofNat date.month
      date := UInt8.ofNat date.day
      hour := UInt8.ofNat t.hour
      minute := UInt8.ofNat t.minute
      second := UInt8.ofNat t.second
      weekday := t.weekday }
  else .error (.argument (.yearNotRepresentable date.year))

/-- The day that the clock shows. -/
def day (c : ClockReading) : Date := ⟨2000 + c.year.toNat, c.month.toNat, c.date.toNat⟩

/-- The clock shows a day and a time that exist. -/
def IsValid (c : ClockReading) : Prop :=
  c.day.IsValid ∧ c.hour.toNat < 24 ∧ c.minute.toNat < 60 ∧ c.second.toNat < 60

instance (c : ClockReading) : Decidable c.IsValid := by
  unfold IsValid; infer_instance

/-- The instant that the clock shows; the day of the week does not count. -/
def toInstant (c : ClockReading) : Except CodecFault Instant :=
  if c.IsValid then .ok (.ofDate c.day c.hour.toNat c.minute.toNat c.second.toNat)
  else .error (.invalid (.notCalendarTime c.year c.month c.date c.hour c.minute c.second))

end ClockReading

end MeterLink

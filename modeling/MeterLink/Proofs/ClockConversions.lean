import MeterLink.Clock
import MeterLink.Proofs.CalendarDays

/-!
# The two clocks of a meter keep the time

The seconds of a meter and its clock of seven bytes write down an instant without its part of a
second. Each takes the instants of its range and no others (`exists_toMeterSeconds_iff`,
`ofInstant_eq_ok_iff`), and gives the same instant back (`toMeterSeconds_eq_ok_iff`,
`toInstant_showing`). The other way round, a clock that shows a day and a time that exist shows the
same again for its instant, with the day of the week that the calendar gives
(`ofInstant_ofDate`).
-/

namespace MeterLink

namespace Instant

/-! ## Seconds of the meter -/

theorem toMeterSeconds_eq_ok_iff {t : Instant} {s : UInt32} :
    t.toMeterSeconds = .ok s ↔ ofMeterSeconds s = t.wholeSeconds := by
  have hs := s.toNat_lt
  simp only [toMeterSeconds, ofMeterSeconds, wholeSeconds, Instant.mk.injEq, and_true]
  split_ifs with h
  · have hword : (t.seconds - meterEpoch).toNat < UInt32.size := by
      simp only [UInt32.size]
      omega
    rw [Except.ok.injEq, ← UInt32.toNat_inj, UInt32.toNat_ofNat_of_lt' hword]
    omega
  · simp only [false_iff]
    omega

theorem exists_toMeterSeconds_iff {t : Instant} : (∃ s, t.toMeterSeconds = .ok s)
    ↔ 946684800 ≤ t.seconds ∧ t.seconds ≤ 946684800 + 4294967295 := by
  constructor
  · rintro ⟨s, hs⟩
    have hlt := s.toNat_lt
    have hsec : meterEpoch + s.toNat = t.seconds :=
      congrArg Instant.seconds (toMeterSeconds_eq_ok_iff.1 hs)
    rw [meterEpoch] at hsec
    omega
  · rintro ⟨hlo, hhi⟩
    refine ⟨_, if_pos ?_⟩
    rw [meterEpoch]
    omega

/-! ## The time of the day -/

theorem hour_lt (t : Instant) : t.hour < 24 := by
  simp only [hour, secondOfDay]
  omega

theorem minute_lt (t : Instant) : t.minute < 60 := Nat.mod_lt _ (by decide)

theorem second_lt (t : Instant) : t.second < 60 := Nat.mod_lt _ (by decide)

theorem ofDate_date (t : Instant) : ofDate t.date t.hour t.minute t.second = t.wholeSeconds := by
  have hseconds : t.days * 86400 + (t.hour * 3600 + t.minute * 60 + t.second : Nat)
      = t.seconds := by
    simp only [days, hour, minute, second, secondOfDay]
    omega
  rw [ofDate, date, Date.toDays_ofDays, hseconds, wholeSeconds]

section OfDate

variable {d : Date} {hour minute second : Nat} (hh : hour < 24) (hm : minute < 60)
  (hs : second < 60)

include hh hm hs

theorem days_ofDate : (ofDate d hour minute second).days = d.toDays := by
  simp only [days, ofDate]
  omega

theorem time_ofDate : (ofDate d hour minute second).hour = hour
    ∧ (ofDate d hour minute second).minute = minute
    ∧ (ofDate d hour minute second).second = second := by
  have hday : (ofDate d hour minute second).secondOfDay
      = hour * 3600 + minute * 60 + second := by
    simp only [secondOfDay, ofDate]
    omega
  simp only [Instant.hour, Instant.minute, Instant.second, hday]
  omega

end OfDate

/-- All seconds of the meter lie in years that its clock can show. -/
theorem year_ofMeterSeconds (s : UInt32) :
    2000 ≤ (ofMeterSeconds s).date.year ∧ (ofMeterSeconds s).date.year ≤ 2255 := by
  have hs := s.toNat_lt
  have hdays : (ofMeterSeconds s).days = (946684800 + (s.toNat : Int)) / 86400 := rfl
  have hfirst : Date.toDays ⟨2000, 1, 1⟩ = 10957 := by decide
  have hlast : Date.toDays ⟨2256, 1, 1⟩ = 104459 := by decide
  have hlo : 2000 ≤ (ofMeterSeconds s).date.year := by
    rw [date, Date.le_year_ofDays_iff, hdays, hfirst]
    omega
  have hhi : ¬ 2256 ≤ (ofMeterSeconds s).date.year := by
    rw [date, Date.le_year_ofDays_iff, hdays, hlast]
    omega
  exact ⟨hlo, by omega⟩

end Instant

namespace ClockReading

/-- What the clock shows at an instant, if it can show the year. -/
def showing (t : Instant) : ClockReading :=
  ⟨UInt8.ofNat (t.date.year - 2000).toNat, UInt8.ofNat t.date.month, UInt8.ofNat t.date.day,
    UInt8.ofNat t.hour, UInt8.ofNat t.minute, UInt8.ofNat t.second, t.weekday⟩

theorem ofInstant_eq_ok_iff {t : Instant} {c : ClockReading} :
    ofInstant t = .ok c ↔ (2000 ≤ t.date.year ∧ t.date.year ≤ 2255) ∧ c = showing t := by
  simp only [ofInstant, showing]
  split_ifs with h
  · simp [h, eq_comm]
  · simp [h]

theorem toInstant_eq_ok_iff {c : ClockReading} {t : Instant} : c.toInstant = .ok t ↔
    c.IsValid ∧ t = .ofDate c.day c.hour.toNat c.minute.toNat c.second.toNat := by
  simp only [toInstant]
  split_ifs with h
  · simp [h, eq_comm]
  · simp [h]

theorem toNat_byte {n : Nat} (h : n < 256) : (UInt8.ofNat n).toNat = n := by
  rw [UInt8.toNat_ofNat']
  exact Nat.mod_eq_of_lt h

theorem daysInMonth_lt (year : Int) (month : Nat) : Date.daysInMonth year month < 256 := by
  unfold Date.daysInMonth
  split_ifs <;> decide

section Showing

variable (t : Instant)

theorem hour_showing : (showing t).hour.toNat = t.hour :=
  toNat_byte (Nat.lt_trans t.hour_lt (by decide))

theorem minute_showing : (showing t).minute.toNat = t.minute :=
  toNat_byte (Nat.lt_trans t.minute_lt (by decide))

theorem second_showing : (showing t).second.toNat = t.second :=
  toNat_byte (Nat.lt_trans t.second_lt (by decide))

variable {t} (h : 2000 ≤ t.date.year ∧ t.date.year ≤ 2255)

include h

theorem day_showing : (showing t).day = t.date := by
  obtain ⟨-, hm, -, hd⟩ := Date.isValid_ofDays t.days
  have hyear : (showing t).year.toNat = (t.date.year - 2000).toNat := toNat_byte (by omega)
  have hmonth : (showing t).month.toNat = t.date.month :=
    toNat_byte (Nat.lt_of_le_of_lt hm (by decide))
  have hdate : (showing t).date.toNat = t.date.day :=
    toNat_byte (Nat.lt_of_le_of_lt hd (daysInMonth_lt _ _))
  have hback : 2000 + ((t.date.year - 2000).toNat : Int) = t.date.year := by omega
  rw [day, hyear, hmonth, hdate, hback]

theorem toInstant_showing : (showing t).toInstant = .ok t.wholeSeconds := by
  refine toInstant_eq_ok_iff.2 ⟨⟨?_, ?_, ?_, ?_⟩, ?_⟩
  · rw [day_showing h]
    exact Date.isValid_ofDays t.days
  · rw [hour_showing]
    exact t.hour_lt
  · rw [minute_showing]
    exact t.minute_lt
  · rw [second_showing]
    exact t.second_lt
  · rw [day_showing h, hour_showing, minute_showing, second_showing, Instant.ofDate_date]

end Showing

theorem ofInstant_ofDate {c : ClockReading} (h : c.IsValid) :
    let t := Instant.ofDate c.day c.hour.toNat c.minute.toNat c.second.toNat
    ofInstant t = .ok { c with weekday := t.weekday } := by
  intro t
  obtain ⟨hday, hh, hm, hs⟩ := h
  obtain ⟨hhour, hminute, hsecond⟩ := Instant.time_ofDate (d := c.day) hh hm hs
  have hlt := c.year.toNat_lt
  have hdate : t.date = c.day := by
    rw [Instant.date, Instant.days_ofDate hh hm hs, Date.ofDays_toDays hday]
  have hyear : c.day.year = 2000 + c.year.toNat := rfl
  have hback : (c.day.year - 2000).toNat = c.year.toNat := by omega
  refine ofInstant_eq_ok_iff.2 ⟨by rw [hdate, hyear]; omega, ?_⟩
  rw [showing, hdate, hhour, hminute, hsecond, hback]
  simp only [day, UInt8.ofNat_toNat]

/-- Days follow each other by the rules of the calendar, and weekdays in their order. Every count of
seconds is that of its instant, and the clock shows that instant. An instant has seconds of the
meter from the start of 2000 for 2³² seconds, and a clock shows it from 2000 to 2255, with its date
and its weekday; both lose the part of a second and nothing else. A clock names an instant exactly
if it shows a day of the calendar and a time of the day, and for that instant it shows the same, on
the weekday that the day has. -/
theorem conversions_inverse :
    (Date.ofDays 0 = ⟨1970, 1, 1⟩ ∧ Date.weekdayOfDays 0 = .thursday
      ∧ ∀ n, Date.ofDays (n + 1) = (Date.ofDays n).next
        ∧ Date.weekdayOfDays (n + 1) = (Date.weekdayOfDays n).next)
    ∧ (∀ s : UInt32, (Instant.ofMeterSeconds s).toMeterSeconds = .ok s
      ∧ ∃ c, ofInstant (.ofMeterSeconds s) = .ok c ∧ c.toInstant = .ok (.ofMeterSeconds s))
    ∧ (∀ t : Instant,
      ((∃ s, t.toMeterSeconds = .ok s)
        ↔ 946684800 ≤ t.seconds ∧ t.seconds ≤ 946684800 + 4294967295)
      ∧ (∀ s, t.toMeterSeconds = .ok s → Instant.ofMeterSeconds s = ⟨t.seconds, 0⟩)
      ∧ ((∃ c, ofInstant t = .ok c) ↔ 2000 ≤ t.date.year ∧ t.date.year ≤ 2255)
      ∧ ∀ c, ofInstant t = .ok c → c.day = t.date ∧ c.weekday = t.weekday
        ∧ c.toInstant = .ok ⟨t.seconds, 0⟩)
    ∧ ∀ c : ClockReading,
      ((∃ t, c.toInstant = .ok t) ↔ (1 ≤ c.month.toNat ∧ c.month.toNat ≤ 12)
        ∧ (1 ≤ c.date.toNat
          ∧ c.date.toNat ≤ Date.daysInMonth (2000 + c.year.toNat) c.month.toNat)
        ∧ c.hour.toNat < 24 ∧ c.minute.toNat < 60 ∧ c.second.toNat < 60)
      ∧ ∀ t, c.toInstant = .ok t → ofInstant t = .ok { c with weekday := t.weekday } := by
  refine ⟨⟨rfl, rfl, fun n => ⟨Date.ofDays_succ n, Date.weekdayOfDays_succ n⟩⟩, fun s => ?_,
    fun t => ⟨Instant.exists_toMeterSeconds_iff, fun s => Instant.toMeterSeconds_eq_ok_iff.1, ?_,
      fun c hc => ?_⟩, fun c => ⟨?_, fun t ht => ?_⟩⟩
  · have hyear := Instant.year_ofMeterSeconds s
    exact ⟨Instant.toMeterSeconds_eq_ok_iff.2 rfl, _, ofInstant_eq_ok_iff.2 ⟨hyear, rfl⟩,
      toInstant_showing hyear⟩
  · simp only [ofInstant_eq_ok_iff, exists_and_left, exists_eq, and_true]
  · obtain ⟨hyear, rfl⟩ := ofInstant_eq_ok_iff.1 hc
    exact ⟨day_showing hyear, rfl, toInstant_showing hyear⟩
  · simp only [toInstant_eq_ok_iff, exists_and_left, exists_eq, and_true]
    simp only [IsValid, Date.IsValid, day, and_assoc]
  · obtain ⟨hvalid, rfl⟩ := toInstant_eq_ok_iff.1 ht
    exact ofInstant_ofDate hvalid

/-- Half a second into the leap second at the end of 2016, and the end of February in 2100, which
has no leap day, under a day of the week without a name. -/
theorem conversions_inverse_leap :
    let t : Instant := ⟨1483228799, 1500000000⟩
    let c : ClockReading := ⟨100, 2, 28, 23, 59, 59, .unknown 9⟩
    (t.toMeterSeconds = .ok 536543999 ∧ Instant.ofMeterSeconds 536543999 = ⟨1483228799, 0⟩)
      ∧ (ofInstant t = .ok ⟨16, 12, 31, 23, 59, 59, .saturday⟩
        ∧ toInstant ⟨16, 12, 31, 23, 59, 59, .saturday⟩ = .ok ⟨1483228799, 0⟩)
      ∧ c.toInstant = .ok ⟨4107542399, 0⟩
      ∧ ofInstant ⟨4107542399, 0⟩ = .ok { c with weekday := .sunday } := by
  intro t c
  obtain ⟨-, -, hinstant, hclock⟩ := conversions_inverse
  obtain ⟨-, hseconds, -, hshown⟩ := hinstant t
  have hs : t.toMeterSeconds = .ok 536543999 := by rfl
  have ht : ofInstant t = .ok ⟨16, 12, 31, 23, 59, 59, .saturday⟩ :=
    ofInstant_eq_ok_iff.2 ⟨by decide, by decide⟩
  have hc : c.toInstant = .ok ⟨4107542399, 0⟩ :=
    toInstant_eq_ok_iff.2 ⟨by decide, by decide⟩
  exact ⟨⟨hs, hseconds _ hs⟩, ⟨ht, (hshown _ ht).2.2⟩, hc, (hclock c).2 _ hc⟩

end ClockReading

end MeterLink

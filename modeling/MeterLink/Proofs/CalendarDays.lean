import Mathlib.Tactic.IntervalCases
import Mathlib.Tactic.SplitIfs
import MeterLink.Calendar.Instant

/-!
# Counting the days of the calendar

A date and the count of days to it give each other (`ofDays_toDays`, `toDays_ofDays`), and the count
goes up by one from a date to the next (`ofDays_succ`), so the arithmetic of `ofDays` is that of the
calendar. Both are proved for years that begin on 1 March: `marchOf` is the count at which such a
year begins, and in it a date is its number of days since then (`InYear`). That `ofDays` finds the
year follows from the parts of an era, by centuries and cycles of four years (`InEra`).
-/

namespace MeterLink

/-- The day of the week after this one. -/
def Weekday.next : Weekday → Weekday
  | .monday => .tuesday
  | .tuesday => .wednesday
  | .wednesday => .thursday
  | .thursday => .friday
  | .friday => .saturday
  | .saturday => .sunday
  | .sunday => .monday
  | .unknown code => .unknown code

namespace Date

/-- The date after this one. -/
def next (d : Date) : Date :=
  if d.day < daysInMonth d.year d.month then ⟨d.year, d.month, d.day + 1⟩
  else if d.month < 12 then ⟨d.year, d.month + 1, 1⟩
  else ⟨d.year + 1, 1, 1⟩

/-! ## Months from March on -/

/-- The number of a month in a year that begins in March, from zero. -/
def fromMarch (month : Nat) : Int := if month ≤ 2 then month + 9 else month - 3

/-- Days from 1 March to the start of a month that is counted from March. -/
def monthStart (month : Int) : Int := (153 * month + 2) / 5

theorem daysInMonth_eq {month : Nat} (h : 1 ≤ month) (h' : month ≤ 12) (hne : month ≠ 2)
    (year : Int) : (daysInMonth year month : Int)
      = monthStart (fromMarch month + 1) - monthStart (fromMarch month) := by
  interval_cases month
  case «2» => exact absurd rfl hne
  all_goals rfl

theorem day_le {d : Date} (h : d.IsValid) :
    (d.day : Int) ≤ monthStart (fromMarch d.month + 1) - monthStart (fromMarch d.month) := by
  obtain ⟨hm, hm', -, hd⟩ := h
  by_cases hfeb : d.month = 2
  · have hmost : daysInMonth d.year d.month ≤ 29 := by
      rw [hfeb, daysInMonth, if_pos rfl]
      split_ifs <;> omega
    have hroom : monthStart (fromMarch 2 + 1) - monthStart (fromMarch 2) = 30 := by
      simp [monthStart, fromMarch]
    rw [hfeb, hroom]
    omega
  · have hlen := daysInMonth_eq hm hm' hfeb d.year
    omega

/-! ## Years from March on -/

/-- Days from 1 March of the year 0 to 1 March of a year. -/
def marchOf (year : Int) : Int := 365 * year + year / 4 - year / 100 + year / 400

theorem marchOf_succ (year : Int) :
    marchOf (year + 1) = marchOf year + if IsLeap (year + 1) then 366 else 365 := by
  unfold marchOf IsLeap
  split_ifs <;> omega

theorem marchOf_le {year year' : Int} (h : year ≤ year') : marchOf year ≤ marchOf year' := by
  unfold marchOf
  omega

/-- The year of the last 1 March. -/
def marchYear (d : Date) : Int := if d.month ≤ 2 then d.year - 1 else d.year

/-- Days since the last 1 March. -/
def sinceMarch (d : Date) : Int := monthStart (fromMarch d.month) + d.day - 1

theorem toDays_eq (d : Date) : d.toDays = marchOf d.marchYear + d.sinceMarch - epochOffset := by
  have hera : ∀ y z : Int, y / 400 * daysPerEra
      + ((y - y / 400 * 400) * 365 + (y - y / 400 * 400) / 4 - (y - y / 400 * 400) / 100 + z)
      = marchOf y + z := by
    intro y z
    simp only [marchOf, daysPerEra]
    omega
  simp only [toDays, hera]
  rfl

/-- The date so many days after 1 March of a year. -/
def ofMarch (year days : Int) : Date :=
  let month := (5 * days + 2) / 153
  let number := if month < 10 then month + 3 else month - 9
  ⟨if number ≤ 2 then year + 1 else year, number.toNat, (days - monthStart month + 1).toNat⟩

/-- So many days after its 1 March, the next one has not come yet. -/
def InYear (year days : Int) : Prop :=
  0 ≤ days ∧ days ≤ 365 ∧ (days = 365 → IsLeap (year + 1))

theorem IsValid.inYear {d : Date} (h : d.IsValid) : InYear d.marchYear d.sinceMarch := by
  obtain ⟨year, month, day⟩ := d
  obtain ⟨hm, hm', hd, hd'⟩ := h
  simp only at hm hm' hd hd'
  by_cases hfeb : month = 2
  · subst hfeb
    have hlast : daysInMonth year 2 = if IsLeap year then 29 else 28 := rfl
    simp only [InYear, marchYear, sinceMarch, monthStart, fromMarch]
    rw [hlast] at hd'
    split_ifs at hd' with hleap
    · exact ⟨by omega, by omega, fun _ => by simpa using hleap⟩
    · exact ⟨by omega, by omega, by omega⟩
  · have hlen := daysInMonth_eq hm hm' hfeb year
    simp only [InYear, sinceMarch, monthStart, fromMarch] at hlen ⊢
    refine ⟨?_, ?_, ?_⟩ <;> split_ifs at * <;> omega

theorem ofMarch_sinceMarch {d : Date} (h : d.IsValid) : ofMarch d.marchYear d.sinceMarch = d := by
  have hle := day_le h
  obtain ⟨year, month, day⟩ := d
  obtain ⟨hm, hm', hd, -⟩ := h
  simp only at hm hm' hd hle
  have hmonth : (5 * (monthStart (fromMarch month) + day - 1) + 2) / 153 = fromMarch month := by
    simp only [monthStart] at hle ⊢
    omega
  simp only [ofMarch, sinceMarch, marchYear, hmonth, Date.mk.injEq]
  simp only [fromMarch]
  refine ⟨?_, ?_, ?_⟩
  · split_ifs <;> omega
  · split_ifs <;> omega
  · omega

section InYear

variable {year days : Int} (h : InYear year days)

include h

theorem month_ofMarch : 1 ≤ (ofMarch year days).month ∧ (ofMarch year days).month ≤ 12
    ∧ fromMarch (ofMarch year days).month = (5 * days + 2) / 153 := by
  obtain ⟨hlo, hhi, -⟩ := h
  simp only [ofMarch, fromMarch]
  refine ⟨?_, ?_, ?_⟩ <;> split_ifs <;> omega

theorem day_ofMarch : ((ofMarch year days).day : Int)
    = days - monthStart ((5 * days + 2) / 153) + 1 := by
  obtain ⟨hlo, -, -⟩ := h
  simp only [ofMarch, monthStart]
  omega

theorem sinceMarch_ofMarch : (ofMarch year days).sinceMarch = days := by
  obtain ⟨-, -, hmonth⟩ := month_ofMarch h
  rw [sinceMarch, hmonth, day_ofMarch h]
  omega

theorem marchYear_ofMarch : (ofMarch year days).marchYear = year := by
  obtain ⟨hlo, hhi, -⟩ := h
  simp only [ofMarch, marchYear]
  split_ifs <;> omega

theorem isValid_ofMarch : (ofMarch year days).IsValid := by
  obtain ⟨hm, hm', hmonth⟩ := month_ofMarch h
  have hday := day_ofMarch h
  have hyear := marchYear_ofMarch h
  obtain ⟨hlo, hhi, hleap⟩ := h
  refine ⟨hm, hm', ?_, ?_⟩
  · simp only [monthStart] at hday
    omega
  · by_cases hfeb : (ofMarch year days).month = 2
    · have heleven : (5 * days + 2) / 153 = 11 := by rw [← hmonth, hfeb]; rfl
      have hnext : (ofMarch year days).year = year + 1 := by
        rw [marchYear, hfeb, if_pos (Nat.le_refl 2)] at hyear
        omega
      have hstart : monthStart 11 = 337 := rfl
      rw [heleven, hstart] at hday
      rw [hfeb, hnext, daysInMonth, if_pos rfl]
      split_ifs with hl
      · omega
      · have : days ≠ 365 := fun hlast => hl (hleap hlast)
        omega
    · have hlen := daysInMonth_eq hm hm' hfeb (ofMarch year days).year
      rw [hmonth] at hlen
      simp only [monthStart] at hlen hday
      omega

end InYear

/-! ## The parts of an era -/

/-- A day of an era by its century, the cycle of four years in the century, the year of the cycle
and the day of that year. A cycle is one day short if it is the last of a century that is not the
last of the era. -/
structure InEra (day century cycle year rest : Int) : Prop where
  century_mem : 0 ≤ century ∧ century ≤ 3
  cycle_mem : 0 ≤ cycle ∧ cycle ≤ 24
  year_mem : 0 ≤ year ∧ year ≤ 3
  rest_mem : 0 ≤ rest ∧ rest ≤ 365
  leap : rest = 365 → year = 3 ∧ (cycle < 24 ∨ century = 3)
  day_eq : day = 36524 * century + 1461 * cycle + 365 * year + rest

theorem exists_inEra {day : Int} (h : 0 ≤ day) (h' : day < 146097) :
    ∃ century cycle year rest, InEra day century cycle year rest := by
  let century := min 3 (day / 36524)
  let cycle := (day - 36524 * century) / 1461
  let year := min 3 ((day - 36524 * century - 1461 * cycle) / 365)
  refine ⟨century, cycle, year, day - 36524 * century - 1461 * cycle - 365 * year,
    ?_, ?_, ?_, ?_, ?_, ?_⟩ <;> omega

section InEra

variable {day century cycle year rest : Int} (h : InEra day century cycle year rest)

include h

theorem InEra.day_mem : 0 ≤ day ∧ day < 146097 := by
  obtain ⟨⟨_, _⟩, ⟨_, _⟩, ⟨_, _⟩, ⟨_, _⟩, hleap, hday⟩ := h
  omega

/-- The last day of an era is counted in its last century all the same. -/
theorem InEra.century_eq : day / 36524 - day / 146096 = century := by
  obtain ⟨hcentury, ⟨_, _⟩, ⟨_, _⟩, ⟨_, _⟩, hleap, hday⟩ := h
  -- Without the parts of the century, so that only the two quotients are left to compare.
  obtain ⟨left, hleft⟩ : ∃ left, left = 1461 * cycle + 365 * year + rest := ⟨_, rfl⟩
  have hlo : 0 ≤ left := by omega
  have hhi : left ≤ 36524 := by omega
  have hlast : left = 36524 → century = 3 := by omega
  have hsplit : day = 36524 * century + left := by omega
  clear * - hcentury hlo hhi hlast hsplit
  omega

theorem InEra.yearOfEra_eq : (day - day / 1460 + day / 36524 - day / 146096) / 365
    = 100 * century + 4 * cycle + year := by
  have hcentury := h.century_eq
  obtain ⟨⟨_, _⟩, ⟨_, _⟩, ⟨_, _⟩, ⟨_, _⟩, hleap, hday⟩ := h
  have hcycle : day / 1460
      = 25 * century + cycle + (24 * century + cycle + 365 * year + rest) / 1460 := by omega
  omega

theorem InEra.marchOf_eq (era : Int) :
    marchOf (400 * era + (100 * century + 4 * cycle + year)) = 146097 * era + day - rest := by
  obtain ⟨⟨_, _⟩, ⟨_, _⟩, ⟨_, _⟩, -, -, hday⟩ := h
  have h4 : (400 * era + (100 * century + 4 * cycle + year)) / 4
      = 100 * era + 25 * century + cycle := by omega
  have h100 : (400 * era + (100 * century + 4 * cycle + year)) / 100 = 4 * era + century := by omega
  have h400 : (400 * era + (100 * century + 4 * cycle + year)) / 400 = era := by omega
  rw [marchOf, h4, h100, h400]
  omega

theorem InEra.inYear (era : Int) :
    InYear (400 * era + (100 * century + 4 * cycle + year)) rest := by
  obtain ⟨⟨_, _⟩, ⟨_, _⟩, ⟨_, _⟩, ⟨hlo, hhi⟩, hleap, hday⟩ := h
  refine ⟨hlo, hhi, fun hlast => ?_⟩
  obtain ⟨rfl, hcycle⟩ := hleap hlast
  rw [IsLeap]
  omega

theorem InEra.ofDays_eq (era : Int) : ofDays (146097 * era + day - epochOffset)
    = ofMarch (400 * era + (100 * century + 4 * cycle + year)) rest := by
  obtain ⟨hlo, hhi⟩ := h.day_mem
  have hera : (146097 * era + day - epochOffset + epochOffset) / daysPerEra = era := by
    simp only [daysPerEra]
    omega
  have hday : 146097 * era + day - epochOffset + epochOffset - era * daysPerEra = day := by
    simp only [daysPerEra]
    omega
  have hrest : day - (365 * (100 * century + 4 * cycle + year)
      + (100 * century + 4 * cycle + year) / 4 - (100 * century + 4 * cycle + year) / 100)
      = rest := by
    have hmarch := h.marchOf_eq 0
    rw [marchOf] at hmarch
    obtain ⟨⟨_, _⟩, ⟨_, _⟩, ⟨_, _⟩, -, -, -⟩ := h
    omega
  have hof : ∀ n, ofDays n = (
      let era := (n + epochOffset) / daysPerEra
      let day := n + epochOffset - era * daysPerEra
      let year := (day - day / 1460 + day / 36524 - day / 146096) / 365
      ofMarch (year + era * 400) (day - (365 * year + year / 4 - year / 100))) := fun _ => rfl
  simp only [hof, hera, hday, h.yearOfEra_eq, hrest]
  congr 1
  omega

end InEra

theorem InYear.exists_inEra {year days : Int} (h : InYear year days) :
    ∃ day century cycle y, InEra day century cycle y days
      ∧ year = 400 * (year / 400) + (100 * century + 4 * cycle + y) := by
  obtain ⟨hlo, hhi, hleap⟩ := h
  rw [IsLeap] at hleap
  refine ⟨_, year % 400 / 100, year % 100 / 4, year % 4,
    ⟨?_, ?_, ?_, ⟨hlo, hhi⟩, fun hlast => ?_, rfl⟩, ?_⟩
  · omega
  · omega
  · omega
  · obtain ⟨h4, hcentury⟩ := hleap hlast
    clear hleap
    omega
  · omega

/-! ## Dates and counts of days -/

theorem ofDays_marchOf {year days : Int} (h : InYear year days) :
    ofDays (marchOf year + days - epochOffset) = ofMarch year days := by
  obtain ⟨day, century, cycle, y, hera, hyear⟩ := h.exists_inEra
  rw [hyear, hera.marchOf_eq, ← hera.ofDays_eq]
  congr 1
  omega

theorem exists_inYear (n : Int) :
    ∃ year days, InYear year days ∧ n = marchOf year + days - epochOffset := by
  obtain ⟨hlo, hhi⟩ : 0 ≤ (n + epochOffset) % 146097 ∧ (n + epochOffset) % 146097 < 146097 := by
    omega
  obtain ⟨century, cycle, year, rest, h⟩ := exists_inEra hlo hhi
  refine ⟨_, rest, h.inYear ((n + epochOffset) / 146097), ?_⟩
  rw [h.marchOf_eq]
  omega

theorem ofDays_toDays {d : Date} (h : d.IsValid) : ofDays d.toDays = d := by
  rw [toDays_eq, ofDays_marchOf h.inYear, ofMarch_sinceMarch h]

theorem toDays_ofDays (n : Int) : (ofDays n).toDays = n := by
  obtain ⟨year, days, h, rfl⟩ := exists_inYear n
  rw [ofDays_marchOf h, toDays_eq, marchYear_ofMarch h, sinceMarch_ofMarch h]

theorem isValid_ofDays (n : Int) : (ofDays n).IsValid := by
  obtain ⟨year, days, h, rfl⟩ := exists_inYear n
  rw [ofDays_marchOf h]
  exact isValid_ofMarch h

/-! ## One day after the other -/

theorem isValid_next {d : Date} (h : d.IsValid) : d.next.IsValid := by
  obtain ⟨hm, hm', hd, hd'⟩ := h
  have hsome : ∀ year month, 1 ≤ daysInMonth year month := by
    intro year month
    unfold daysInMonth
    split_ifs <;> decide
  unfold next
  split_ifs with hday hmonth
  · exact ⟨hm, hm', Nat.le_add_left 1 _, hday⟩
  · exact ⟨Nat.le_add_left 1 _, hmonth, Nat.le_refl 1, hsome _ _⟩
  · exact ⟨Nat.le_refl 1, Nat.le_of_ble_eq_true rfl, Nat.le_refl 1, hsome _ _⟩

theorem toDays_next {d : Date} (h : d.IsValid) : d.next.toDays = d.toDays + 1 := by
  obtain ⟨year, month, day⟩ := d
  obtain ⟨hm, hm', hd, hd'⟩ := h
  simp only at hm hm' hd hd'
  simp only [toDays_eq, next]
  split_ifs with hday hmonth
  · simp only [marchYear, sinceMarch]
    omega
  · obtain rfl : day = daysInMonth year month := by omega
    by_cases hfeb : month = 2
    · -- The end of February is the end of a year from March on.
      subst hfeb
      have hmarch := marchOf_succ (year - 1)
      rw [Int.sub_add_cancel] at hmarch
      have hfirst : sinceMarch ⟨year, 2 + 1, 1⟩ = 0 := by simp [sinceMarch, monthStart, fromMarch]
      have hlast : sinceMarch ⟨year, 2, daysInMonth year 2⟩ = 337 + daysInMonth year 2 - 1 := by
        simp [sinceMarch, monthStart, fromMarch]
      have hold : marchYear ⟨year, 2, daysInMonth year 2⟩ = year - 1 := rfl
      have hnew : marchYear ⟨year, 2 + 1, 1⟩ = year := rfl
      have hlen : daysInMonth year 2 = if IsLeap year then 29 else 28 := rfl
      rw [hfirst, hlast, hold, hnew, hmarch, hlen]
      split_ifs <;> omega
    · have hlast := daysInMonth_eq hm hm' hfeb year
      have hnext : fromMarch (month + 1) = fromMarch month + 1 := by
        simp only [fromMarch]
        split_ifs <;> omega
      have hyear : marchYear ⟨year, month + 1, 1⟩
          = marchYear ⟨year, month, daysInMonth year month⟩ := by
        simp only [marchYear]
        split_ifs <;> omega
      simp only [hyear, sinceMarch, hnext]
      omega
  · obtain rfl : month = 12 := by omega
    obtain rfl : day = daysInMonth year 12 := by omega
    have hfirst : sinceMarch ⟨year + 1, 1, 1⟩ = 306 := by
      simp [sinceMarch, monthStart, fromMarch]
    have hlast : sinceMarch ⟨year, 12, daysInMonth year 12⟩ = 305 := by
      simp [sinceMarch, monthStart, fromMarch, daysInMonth]
    have hold : marchYear ⟨year, 12, daysInMonth year 12⟩ = year := rfl
    have hnew : marchYear ⟨year + 1, 1, 1⟩ = year + 1 - 1 := rfl
    rw [hfirst, hlast, hold, hnew, Int.add_sub_cancel]
    omega

theorem ofDays_succ (n : Int) : ofDays (n + 1) = (ofDays n).next := by
  have h := isValid_ofDays n
  rw [← ofDays_toDays (isValid_next h), toDays_next h, toDays_ofDays]

theorem weekdayOfDays_succ (n : Int) : weekdayOfDays (n + 1) = (weekdayOfDays n).next := by
  obtain ⟨k, hk, hn⟩ : ∃ k : Nat, k < 7 ∧ (n + 3) % 7 = k :=
    ⟨((n + 3) % 7).toNat, by omega, by omega⟩
  have hsucc : (n + 1 + 3) % 7 = ((k + 1) % 7 : Nat) := by omega
  rw [weekdayOfDays, weekdayOfDays, hn, hsucc]
  interval_cases k <;> rfl

/-! ## The first day of a year -/

theorem toDays_newYear (year : Int) :
    toDays ⟨year, 1, 1⟩ = marchOf (year - 1) + 306 - epochOffset := by
  rw [toDays_eq]
  simp [marchYear, sinceMarch, monthStart, fromMarch]

theorem newYear_le_toDays {d : Date} (h : d.IsValid) :
    toDays ⟨d.year, 1, 1⟩ ≤ d.toDays ∧ d.toDays < toDays ⟨d.year + 1, 1, 1⟩ := by
  have hle := day_le h
  have hyear := h.inYear
  obtain ⟨hm, hm', hd, -⟩ := h
  have hmarch := marchOf_succ (d.year - 1)
  rw [Int.sub_add_cancel] at hmarch
  rw [toDays_newYear, toDays_newYear, toDays_eq, Int.add_sub_cancel]
  simp only [InYear, sinceMarch, marchYear, monthStart, fromMarch] at *
  split_ifs at * <;> omega

theorem le_year_ofDays_iff {n year : Int} :
    year ≤ (ofDays n).year ↔ toDays ⟨year, 1, 1⟩ ≤ n := by
  obtain ⟨hlo, hhi⟩ := newYear_le_toDays (isValid_ofDays n)
  rw [toDays_ofDays, toDays_newYear] at hlo hhi
  rw [toDays_newYear]
  constructor
  · intro h
    have := marchOf_le (Int.sub_le_sub_right h 1)
    omega
  · intro h
    by_contra hlt
    have hle : (ofDays n).year + 1 - 1 ≤ year - 1 := by omega
    have := marchOf_le hle
    omega

end Date

end MeterLink

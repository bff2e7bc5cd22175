/-
Days are dates of the calendar.

* `CivilDate.yearStart` — the day of a group of four hundred years on which a year of it starts;
* `CivilDate.PlaceInGroup` — the year in which a day of such a group lies;
* `CivilDate.OnCalendar` — a date with a month and a day of that month;
* `CivilDate.ofDays_spec` — every day is such a date, which gives the day back.

Years start in March here, so that a leap day is the last day of its year.
-/
import RepoAccess.Timestamp

namespace RepoAccess

namespace CivilDate

/-! ### Years of a group -/

/-- The day of a group on which a year of it starts. -/
def yearStart (year : Int) : Int := 365 * year + year / 4 - year / 100

/-- The year of a group in which a day of it lies, as `ofDays` finds it. -/
def yearOfDay (day : Int) : Int := (day - day / 1460 + day / 36524 - day / 146096) / 365

/-- The day of a group lies in that year, and is a leap day only if there is one. -/
structure PlaceInGroup (day year : Int) : Prop where
  year_nonneg : 0 ≤ year
  year_lt : year < 400
  start_le : yearStart year ≤ day
  le_start : day ≤ yearStart year + 365
  leap : day = yearStart year + 365 → isLeapYear (year + 1) = true

theorem placeInGroup {day : Int} (h₀ : 0 ≤ day) (h : day < 146097) :
    PlaceInGroup day (yearOfDay day) := by
  have hlast : day / 146096 = 0 ∧ day < 146096 ∨ day = 146096 := by omega
  rcases hlast with ⟨hlast, hday⟩ | rfl
  · generalize hyear : yearOfDay day = year
    rw [yearOfDay, hlast] at hyear
    -- The year's century is the day's, and its four-year period is the day's or, on the days that
    -- the centuries have lost, the last year of the one before.
    have hcentury : year / 100 = day / 36524 := by
      have : day / 36524 = 0 ∨ day / 36524 = 1 ∨ day / 36524 = 2 ∨ day / 36524 = 3 := by omega
      rcases this with hd | hd | hd | hd <;> rw [hd] at hyear <;> rw [hd] <;> omega
    have hperiods : 25 * (day / 36524) ≤ day / 1460 ∧ day / 1460 ≤ 100 := by omega
    have hperiod :
        day % 1460 - day / 1460 + day / 36524 < 0 ∧ year = 4 * (day / 1460) - 1 ∨
        0 ≤ day % 1460 - day / 1460 + day / 36524 ∧ year / 4 = day / 1460 := by
      omega
    refine ⟨by omega, by omega, ?_, ?_, ?_⟩
    · rw [yearStart, hcentury]
      omega
    · rw [yearStart, hcentury]
      omega
    · rw [yearStart, hcentury, isLeapYear]
      intro hleap
      simp
      omega
  · exact ⟨by decide, by decide, by decide, by decide, fun _ => by decide⟩

/-! ### Months and days -/

/-- The date has a month and a day of that month. -/
structure OnCalendar (d : CivilDate) : Prop where
  month_pos : 1 ≤ d.month
  month_le : d.month ≤ 12
  day_pos : 1 ≤ d.day
  day_le : d.day ≤ daysInMonth d.year d.month

theorem daysInMonth_le (year : Int) (month : Nat) : daysInMonth year month ≤ 31 := by
  unfold daysInMonth
  repeat' split
  all_goals decide

/-- The year from March in which a date lies. -/
def yearFromMarch (d : CivilDate) : Int := if d.month ≤ 2 then d.year - 1 else d.year

/-- The day of that year. -/
def dayFromMarch (d : CivilDate) : Int :=
  (153 * (((d.month : Int) + 9) % 12) + 2) / 5 + d.day - 1

theorem toDays_eq (d : CivilDate) :
    d.toDays = 146097 * (d.yearFromMarch / 400) +
      (yearStart (d.yearFromMarch % 400) + d.dayFromMarch) - 719468 :=
  rfl

/-- The month, counted from March, in which a day of such a year lies, as `ofDays` finds it. -/
def monthOfDay (day : Int) : Int := (5 * day + 2) / 153

/-- The date of a day of a year from March. -/
def fromMarch (year day : Int) : CivilDate :=
  let month := if monthOfDay day < 10 then monthOfDay day + 3 else monthOfDay day - 9
  ⟨if month ≤ 2 then year + 1 else year, month.toNat,
    (day - (153 * monthOfDay day + 2) / 5 + 1).toNat⟩

theorem ofDays_eq (days : Int) :
    ofDays days =
      fromMarch (yearOfDay ((days + 719468) % 146097) + 400 * ((days + 719468) / 146097))
        ((days + 719468) % 146097 - yearStart (yearOfDay ((days + 719468) % 146097))) :=
  rfl

/-- Every day of a year is one of the calendar, and is found in its year again. -/
theorem fromMarch_spec {year day : Int} (h₀ : 0 ≤ day) (h : day ≤ 365)
    (hleap : day = 365 → isLeapYear (year + 1) = true) :
    (fromMarch year day).OnCalendar ∧ (fromMarch year day).yearFromMarch = year ∧
      (fromMarch year day).dayFromMarch = day := by
  have hmonth : monthOfDay day = 0 ∨ monthOfDay day = 1 ∨ monthOfDay day = 2 ∨
      monthOfDay day = 3 ∨ monthOfDay day = 4 ∨ monthOfDay day = 5 ∨ monthOfDay day = 6 ∨
      monthOfDay day = 7 ∨ monthOfDay day = 8 ∨ monthOfDay day = 9 ∨ monthOfDay day = 10 ∨
      monthOfDay day = 11 := by
    rw [monthOfDay]
    omega
  rcases hmonth with hm | hm | hm | hm | hm | hm | hm | hm | hm | hm | hm | hm
  case inr.inr.inr.inr.inr.inr.inr.inr.inr.inr.inr =>
    -- February, the only month whose length depends on the year.
    rw [monthOfDay] at hm
    cases hyear : isLeapYear (year + 1) with
    | true =>
      refine ⟨⟨?_, ?_, ?_, ?_⟩, ?_, ?_⟩ <;>
        simp [fromMarch, monthOfDay, hm, daysInMonth, hyear, yearFromMarch, dayFromMarch] <;> omega
    | false =>
      have hshort : day ≠ 365 := by
        intro hlast
        rw [hleap hlast] at hyear
        cases hyear
      refine ⟨⟨?_, ?_, ?_, ?_⟩, ?_, ?_⟩ <;>
        simp [fromMarch, monthOfDay, hm, daysInMonth, hyear, yearFromMarch, dayFromMarch] <;> omega
  all_goals
    rw [monthOfDay] at hm
    refine ⟨⟨?_, ?_, ?_, ?_⟩, ?_, ?_⟩ <;>
      simp [fromMarch, monthOfDay, hm, daysInMonth, yearFromMarch, dayFromMarch] <;> omega

/-! ### All days -/

theorem isLeapYear_add_groups (year groups : Int) :
    isLeapYear (year + 400 * groups) = isLeapYear year := by
  have h4 : (year + 400 * groups) % 4 = year % 4 := by omega
  have h100 : (year + 400 * groups) % 100 = year % 100 := by omega
  have h400 : (year + 400 * groups) % 400 = year % 400 := by omega
  rw [isLeapYear, isLeapYear, h4, h100, h400]

/-- Every day is a date of the calendar, which gives the day back. -/
theorem ofDays_spec (days : Int) : (ofDays days).OnCalendar ∧ (ofDays days).toDays = days := by
  have hplace : PlaceInGroup ((days + 719468) % 146097) (yearOfDay ((days + 719468) % 146097)) :=
    placeInGroup (by omega) (by omega)
  rw [toDays_eq, ofDays_eq]
  generalize yearOfDay ((days + 719468) % 146097) = year at *
  obtain ⟨hnonneg, hlt, hstart, hend, hleap⟩ := hplace
  have hleap' : (days + 719468) % 146097 - yearStart year = 365 →
      isLeapYear (year + 400 * ((days + 719468) / 146097) + 1) = true := by
    intro hlast
    rw [Int.add_right_comm, isLeapYear_add_groups]
    exact hleap (by omega)
  obtain ⟨hdate, hyear, hday⟩ := fromMarch_spec (by omega) (by omega) hleap'
  refine ⟨hdate, ?_⟩
  rw [hyear, hday]
  have hmod : (year + 400 * ((days + 719468) / 146097)) % 400 = year := by omega
  have hdiv : (year + 400 * ((days + 719468) / 146097)) / 400 = (days + 719468) / 146097 := by omega
  rw [hmod, hdiv]
  omega

theorem year_of_isValid {d : CivilDate} (h : d.isValid = true) :
    -262143 ≤ d.year ∧ d.year ≤ 262142 := by
  simp only [isValid, Bool.and_eq_true, decide_eq_true_eq] at h
  exact ⟨h.1.1.1.1.1, h.1.1.1.1.2⟩

/-- A day is a valid date if its year is one that is kept. -/
theorem isValid_ofDays {days : Int} (h₀ : -262143 ≤ (ofDays days).year)
    (h : (ofDays days).year ≤ 262142) : (ofDays days).isValid = true := by
  obtain ⟨hdate, -⟩ := ofDays_spec days
  simp [isValid, h₀, h, hdate.month_pos, hdate.month_le, hdate.day_pos, hdate.day_le]

end CivilDate

end RepoAccess

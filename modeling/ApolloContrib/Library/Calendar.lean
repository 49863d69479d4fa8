import Mathlib.Data.Int.Basic

namespace ApolloContrib.Library

/-! The Gregorian calendar: days and seconds since the beginning of 1970, in UTC. Years are
counted from March on, and 400 of them make an era. -/

/-- A day of the calendar, months and days from 1. -/
structure Date where
  year : Int
  month : Int
  day : Int
deriving DecidableEq

def daysBeforeYear (yearOfEra : Int) : Int := 365 * yearOfEra + yearOfEra / 4 - yearOfEra / 100

/-- The days of the months of a year before the month, from March on. -/
def daysBeforeMonth (month : Int) : Int := (153 * month + 2) / 5

def Date.days (date : Date) : Int :=
  let year := if date.month ≤ 2 then date.year - 1 else date.year
  let month := if date.month ≤ 2 then date.month + 9 else date.month - 3
  year / 400 * 146097 + daysBeforeYear (year % 400) + daysBeforeMonth month + (date.day - 1) -
    719468

/-- The last year of four, and the last century of four, has a day more. -/
def yearOfDay (dayOfEra : Int) : Int :=
  let century := min (dayOfEra / 36524) 3
  let dayOfCentury := dayOfEra - century * 36524
  let dayOfFour := dayOfCentury % 1461
  100 * century + 4 * (dayOfCentury / 1461) + min (dayOfFour / 365) 3

def monthOfDay (dayOfYear : Int) : Int := (5 * dayOfYear + 2) / 153

def Date.ofDays (days : Int) : Date :=
  let era := (days + 719468) / 146097
  let dayOfEra := (days + 719468) % 146097
  let year := yearOfDay dayOfEra
  let dayOfYear := dayOfEra - daysBeforeYear year
  let month := monthOfDay dayOfYear
  let day := dayOfYear - daysBeforeMonth month + 1
  if month < 10 then ⟨era * 400 + year, month + 3, day⟩
  else ⟨era * 400 + year + 1, month - 9, day⟩

theorem daysBeforeYear_eq {century four year : Int} (hfour : 0 ≤ four ∧ four ≤ 24)
    (hyear : 0 ≤ year ∧ year ≤ 3) :
    daysBeforeYear (100 * century + 4 * four + year) =
      36524 * century + 1461 * four + 365 * year := by
  have hleap : (100 * century + 4 * four + year) / 4 = 25 * century + four := by omega
  have hcentury : (100 * century + 4 * four + year) / 100 = century := by omega
  rw [daysBeforeYear, hleap, hcentury]
  omega

theorem yearOfDay_spec {dayOfEra : Int} (h : 0 ≤ dayOfEra) (hless : dayOfEra < 146097) :
    0 ≤ yearOfDay dayOfEra ∧ yearOfDay dayOfEra < 400 ∧
      0 ≤ dayOfEra - daysBeforeYear (yearOfDay dayOfEra) ∧
      dayOfEra - daysBeforeYear (yearOfDay dayOfEra) ≤ 365 := by
  unfold yearOfDay
  dsimp only
  have hcentury : 0 ≤ min (dayOfEra / 36524) 3 ∧ min (dayOfEra / 36524) 3 ≤ 3 ∧
      0 ≤ dayOfEra - min (dayOfEra / 36524) 3 * 36524 ∧
      dayOfEra - min (dayOfEra / 36524) 3 * 36524 ≤ 36524 := by omega
  generalize min (dayOfEra / 36524) 3 = century at hcentury ⊢
  generalize hrest : dayOfEra - century * 36524 = dayOfCentury at hcentury ⊢
  have hfour : 0 ≤ dayOfCentury / 1461 ∧ dayOfCentury / 1461 ≤ 24 := by omega
  have hyear : 0 ≤ min (dayOfCentury % 1461 / 365) 3 ∧ min (dayOfCentury % 1461 / 365) 3 ≤ 3 ∧
      0 ≤ dayOfCentury % 1461 - 365 * min (dayOfCentury % 1461 / 365) 3 ∧
      dayOfCentury % 1461 - 365 * min (dayOfCentury % 1461 / 365) 3 ≤ 365 := by omega
  generalize min (dayOfCentury % 1461 / 365) 3 = year at hyear ⊢
  rw [daysBeforeYear_eq hfour ⟨hyear.1, hyear.2.1⟩]
  omega

theorem monthOfDay_spec {dayOfYear : Int} (h : 0 ≤ dayOfYear) (hle : dayOfYear ≤ 365) :
    0 ≤ monthOfDay dayOfYear ∧ monthOfDay dayOfYear ≤ 11 ∧
      0 ≤ dayOfYear - daysBeforeMonth (monthOfDay dayOfYear) ∧
      dayOfYear - daysBeforeMonth (monthOfDay dayOfYear) ≤ 30 := by
  unfold daysBeforeMonth monthOfDay
  omega

theorem Date.days_ofDays (days : Int) : (Date.ofDays days).days = days := by
  unfold Date.ofDays
  dsimp only
  have hera : 0 ≤ (days + 719468) % 146097 ∧ (days + 719468) % 146097 < 146097 := by omega
  obtain ⟨hyear, hyearLess, hday, hdayLe⟩ := yearOfDay_spec hera.1 hera.2
  generalize hyearOf : yearOfDay ((days + 719468) % 146097) = year at *
  generalize hdayOf : (days + 719468) % 146097 - daysBeforeYear year = dayOfYear at *
  obtain ⟨hmonth, hmonthLe, -, -⟩ := monthOfDay_spec hday hdayLe
  generalize monthOfDay dayOfYear = month at *
  have hyearDiv : ((days + 719468) / 146097 * 400 + year) / 400 = (days + 719468) / 146097 := by
    omega
  have hyearMod : ((days + 719468) / 146097 * 400 + year) % 400 = year := by omega
  split
  next hlate =>
    rw [Date.days]
    dsimp only
    rw [if_neg (by omega), if_neg (by omega), hyearDiv, hyearMod, Int.add_sub_cancel]
    omega
  next hearly =>
    rw [Date.days]
    dsimp only
    rw [if_pos (by omega), if_pos (by omega), Int.add_sub_cancel, hyearDiv, hyearMod,
      Int.sub_add_cancel]
    omega

structure Date.Valid (date : Date) : Prop where
  month : 1 ≤ date.month ∧ date.month ≤ 12
  day : 1 ≤ date.day ∧ date.day ≤ 31

theorem Date.valid_ofDays (days : Int) : (Date.ofDays days).Valid := by
  unfold Date.ofDays
  dsimp only
  have hera : 0 ≤ (days + 719468) % 146097 ∧ (days + 719468) % 146097 < 146097 := by omega
  obtain ⟨-, -, hday, hdayLe⟩ := yearOfDay_spec hera.1 hera.2
  obtain ⟨hmonth, hmonthLe, hdayOfMonth, hdayOfMonthLe⟩ := monthOfDay_spec hday hdayLe
  split
  all_goals
    constructor
    all_goals
      dsimp only
      omega

structure CivilTime where
  date : Date
  hour : Int
  minute : Int
  second : Int
deriving DecidableEq

/-- `timegm`. -/
def CivilTime.seconds (time : CivilTime) : Int :=
  ((time.date.days * 24 + time.hour) * 60 + time.minute) * 60 + time.second

/-- `gmtime`. -/
def CivilTime.ofSeconds (seconds : Int) : CivilTime where
  date := Date.ofDays (seconds / 86400)
  hour := seconds % 86400 / 3600
  minute := seconds % 3600 / 60
  second := seconds % 60

theorem CivilTime.seconds_ofSeconds (seconds : Int) :
    (CivilTime.ofSeconds seconds).seconds = seconds := by
  rw [CivilTime.seconds, CivilTime.ofSeconds, Date.days_ofDays]
  dsimp only
  omega

structure CivilTime.Valid (time : CivilTime) : Prop where
  date : time.date.Valid
  hour : 0 ≤ time.hour ∧ time.hour ≤ 23
  minute : 0 ≤ time.minute ∧ time.minute ≤ 59
  second : 0 ≤ time.second ∧ time.second ≤ 59

theorem CivilTime.valid_ofSeconds (seconds : Int) : (CivilTime.ofSeconds seconds).Valid := by
  refine ⟨Date.valid_ofDays _, ?_, ?_, ?_⟩
  all_goals
    unfold CivilTime.ofSeconds
    dsimp only
    omega

theorem Date.days_bounds {date : Date} (hvalid : date.Valid) (hyear : 1970 ≤ date.year) :
    365 * (date.year - 1970) ≤ date.days ∧ date.days < 366 * (date.year - 1969) := by
  obtain ⟨hmonth, hday⟩ := hvalid
  unfold Date.days daysBeforeYear daysBeforeMonth
  dsimp only
  split
  all_goals omega

theorem CivilTime.seconds_bounds {time : CivilTime} (hvalid : time.Valid)
    (hyear : 1970 ≤ time.date.year) :
    365 * (time.date.year - 1970) * 86400 ≤ time.seconds ∧
      time.seconds < 366 * (time.date.year - 1969) * 86400 := by
  have hdays := Date.days_bounds hvalid.date hyear
  have hhour := hvalid.hour
  have hminute := hvalid.minute
  have hsecond := hvalid.second
  unfold CivilTime.seconds
  omega

example : Date.ofDays 0 = ⟨1970, 1, 1⟩ := by decide
example : CivilTime.ofSeconds 951782400 = ⟨⟨2000, 2, 29⟩, 0, 0, 0⟩ := by decide

end ApolloContrib.Library

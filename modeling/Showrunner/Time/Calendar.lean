/-!
# The calendar

Days are numbered from zero, the first of January of year one in the Gregorian calendar carried
back without a break. A cycle of 400 years has 146097 days, so the year of a day is found by
division inside a cycle and a correction for the last day of a long year.
-/

namespace Showrunner

namespace Calendar

/-- Decide whether a year has a 29th of February. -/
def isLeap (year : Nat) : Bool := year % 4 == 0 && (year % 100 != 0 || year % 400 == 0)

/-- The number of days of a year. -/
def daysInYear (year : Nat) : Nat := if isLeap year then 366 else 365

/-- The number of days of a month. -/
def daysInMonth (year month : Nat) : Nat :=
  if month = 2 then (if isLeap year then 29 else 28)
  else if month = 4 ∨ month = 6 ∨ month = 9 ∨ month = 11 then 30
  else 31

/-- The number of days of the months of a year before a month. -/
def daysBeforeMonth (year month : Nat) : Nat :=
  ((List.range (month - 1)).map fun m => daysInMonth year (m + 1)).foldl (· + ·) 0

/-- The number of days before a year. -/
def daysBeforeYear (year : Nat) : Nat :=
  let y := year - 1
  y * 365 + y / 4 - y / 100 + y / 400

/-- The last year of the calendar. -/
def lastYear : Nat := 9999

/-- The number of days of the calendar. -/
def dayCount : Nat := 3652059

/-- A date. -/
structure Date where
  year : Nat
  month : Nat
  day : Nat
deriving DecidableEq, Repr

/-- The number of a date. -/
def Date.toDay (d : Date) : Nat :=
  daysBeforeYear d.year + daysBeforeMonth d.year d.month + (d.day - 1)

/-- The year of a day. -/
def yearOf (n : Nat) : Nat :=
  let cycle := n / 146097
  let inCycle := n % 146097
  let century := min 3 (inCycle / 36524)
  let inCentury := inCycle - century * 36524
  let group := inCentury / 1461
  let inGroup := inCentury % 1461
  let year := min 3 (inGroup / 365)
  cycle * 400 + century * 100 + group * 4 + year + 1

/-- The month of the day with a number within its year, searched from a month on. -/
def monthFrom (year inYear : Nat) (month : Nat) : (months : Nat) → Nat × Nat
  | 0 => (month, inYear)
  | months + 1 =>
      let days := daysInMonth year month
      if inYear < days then (month, inYear)
      else monthFrom year (inYear - days) (month + 1) months

/-- The date with a number. -/
def Date.ofDay (n : Nat) : Date :=
  let year := yearOf n
  let (month, inMonth) := monthFrom year (n - daysBeforeYear year) 1 11
  ⟨year, month, inMonth + 1⟩

/-- The weekday of a day, Monday being zero. -/
def weekday (n : Nat) : Nat := n % 7

/-- The first day of the first week of a year: the Monday of the week of the 4th of January. -/
def firstWeek (year : Nat) : Nat :=
  let fourth := daysBeforeYear year + 3
  fourth - weekday fourth

/-- Why a year, month and day make no date. -/
inductive DateFault
  | year (given : Nat)
  | month
  | day
deriving DecidableEq, Repr

/-- Say why a year, month and day make no date. -/
def DateFault.message : DateFault → String
  | .year given => "year " ++ Nat.repr given ++ " is out of range"
  | .month => "month must be in 1..12"
  | .day => "day is out of range for month"

/-- Make a date of a year, a month and a day. -/
def Date.of (year month day : Nat) : Except DateFault Date :=
  if year = 0 ∨ lastYear < year then .error (.year year)
  else if month = 0 ∨ 12 < month then .error .month
  else if day = 0 ∨ daysInMonth year month < day then .error .day
  else .ok ⟨year, month, day⟩

/-- A time of day to the microsecond. -/
structure Clock where
  hour : Nat
  minute : Nat
  second : Nat
  micro : Nat
deriving DecidableEq, Repr

/-- Microseconds in a second. -/
def microsPerSecond : Nat := 1000000

/-- Microseconds in a day. -/
def microsPerDay : Nat := 86400 * microsPerSecond

/-- Microseconds since midnight. -/
def Clock.toMicros (c : Clock) : Nat :=
  ((c.hour * 60 + c.minute) * 60 + c.second) * microsPerSecond + c.micro

/-- The time of day a number of microseconds after midnight. -/
def Clock.ofMicros (n : Nat) : Clock :=
  let seconds := n / microsPerSecond
  ⟨seconds / 3600, seconds / 60 % 60, seconds % 60, n % microsPerSecond⟩

/-- Why a time of day does not exist. -/
inductive ClockFault
  | hour
  | minute
  | second
deriving DecidableEq, Repr

/-- Say why a time of day does not exist. -/
def ClockFault.message : ClockFault → String
  | .hour => "hour must be in 0..23"
  | .minute => "minute must be in 0..59"
  | .second => "second must be in 0..59"

/-- Make a time of day of its parts. -/
def Clock.of (hour minute second micro : Nat) : Except ClockFault Clock :=
  if 23 < hour then .error .hour
  else if 59 < minute then .error .minute
  else if 59 < second then .error .second
  else .ok ⟨hour, minute, second, micro⟩

end Calendar

end Showrunner

import Showrunner.Recurrence.Moment

/-!
# Recurrence rules

A rule repeats at a frequency and an interval, and its other parts limit or expand the days and
times within each period. A rule that says nothing about days takes them from its start, and so
with hours, minutes and seconds finer than its frequency.
-/

namespace Showrunner

namespace Recurrence

open Calendar

/-- How often the periods of a rule come. -/
inductive Frequency
  | yearly
  | monthly
  | weekly
  | daily
  | hourly
  | minutely
  | secondly
deriving DecidableEq, Repr

/-- The position of a frequency, the coarsest first. -/
def Frequency.rank : Frequency → Nat
  | .yearly => 0
  | .monthly => 1
  | .weekly => 2
  | .daily => 3
  | .hourly => 4
  | .minutely => 5
  | .secondly => 6

/-- A day of the week, perhaps the n-th of its kind in a period. -/
structure DayPart where
  weekday : Nat
  nth : Option Int
deriving DecidableEq, Repr

/-- The parts of a rule as authored. -/
structure Parts where
  frequency : Frequency
  interval : Int
  weekStart : Nat
  count : Option Int
  til : Option Moment
  positions : Option (List Int)
  months : Option (List Int)
  monthDays : Option (List Int)
  yearDays : Option (List Int)
  easterDays : Option (List Int)
  weeks : Option (List Int)
  weekdays : Option (List DayPart)
  hours : Option (List Int)
  minutes : Option (List Int)
  seconds : Option (List Int)

/-- A rule with its start, ready to be expanded. An empty list of days or times limits nothing.
Periods of a day or more share their times of day. -/
structure Rule where
  start : Moment
  frequency : Frequency
  interval : Int
  weekStart : Nat
  count : Option Int
  til : Option Moment
  positions : List Int
  months : List Int
  monthDays : List Int
  yearDays : List Int
  easterDays : List Int
  weeks : List Int
  weekdays : List Nat
  nthWeekdays : List (Nat × Int)
  hours : List Int
  minutes : List Int
  seconds : List Int
  dayTimes : List Nat

/-- Why the search for an occurrence stops without one: the rule cannot be used, or an index lies
outside its table, an interval of zero is divided by, or reading a date ends with a fault. -/
inductive Halt
  | unusable
  | fault (fault : Fault)

/-- How the dates of rule texts are read, what zone a name stands for, if it does for any, and which
parameters of a property are passed over. All three stand outside of what is said here: dates are
written in many ways, and those with two digits of the year or less than a whole day depend on the
day of the reading; the zones are those of the place where it is done; and a reader that knows an
extension of the format, or means to bear with all of them, takes parameters that another refuses. -/
structure Dates where
  read : List Char → Except Halt Moment
  zone? : List Char → Except Halt (Option Dial)
  skips : (property parameter : List Char) → Bool

/-- Sort integers and drop repetitions. -/
def sortedSet (xs : List Int) : List Int :=
  let sorted := xs.mergeSort
  sorted.foldr (fun x acc => if acc.head? == some x then acc else x :: acc) []

/-- Keep the values that steps of the interval can reach from a start, around a cycle. -/
def reachable (interval start cycle : Int) (values : List Int) : List Int :=
  let step : Int := Int.gcd interval cycle
  values.filter fun v => step == 1 || (v - start) % step == 0

/-- The values of a time part: given ones, those of the start, or no limit. `same` says that the
part is that of the frequency, `finer` that it is finer than the frequency. -/
def timeValues (given : Option (List Int)) (interval start cycle : Int) (same finer : Bool) :
    Except Halt (List Int) :=
  match given with
  | none => .ok (if finer then [start] else [])
  | some values =>
      if same then
        let kept := reachable interval start cycle values
        if kept.isEmpty then .error .unusable else .ok (sortedSet kept)
      else .ok (sortedSet values)

/-- A time of day in seconds. -/
def timeOfDay (hour minute second : Int) : Except Halt Nat :=
  if 0 ≤ hour ∧ hour < 24 ∧ 0 ≤ minute ∧ minute < 60 ∧ 0 ≤ second ∧ second < 60 then
    .ok ((hour * 60 + minute) * 60 + second).toNat
  else .error .unusable

/-- The times of day that hours, minutes and seconds combine to, in order. -/
def timesOfDay (hours minutes seconds : List Int) : Except Halt (List Nat) := do
  let times ← hours.mapM fun h => minutes.mapM fun m => seconds.mapM fun s => timeOfDay h m s
  pure times.flatten.flatten.mergeSort

/-- Decide whether a rule says anything about days. -/
def Parts.saysDays (p : Parts) : Bool :=
  p.weeks.isSome || p.yearDays.isSome || p.monthDays.isSome || p.weekdays.isSome ||
    p.easterDays.isSome

/-- A position in a period is one of 366 from either end. -/
def positionFits (n : Int) : Bool := n != 0 && -366 ≤ n && n ≤ 366

/-- Complete the parts of a rule from its start. -/
def Parts.toRule (p : Parts) (start : Moment) : Except Halt Rule := do
  let start := { start with wall := start.wall.wholeSecond }
  let date := start.wall.date
  let clock := start.wall.clock
  if p.til.any fun t => t.isAware != start.isAware then .error .unusable
  let positions := p.positions.getD []
  if !positions.all positionFits then .error .unusable
  let silent := !p.saysDays
  let rank := p.frequency.rank
  let months :=
    if silent && p.frequency == .yearly && p.months.isNone then [(date.month : Int)]
    else sortedSet (p.months.getD [])
  let monthDays :=
    if silent && (p.frequency == .yearly || p.frequency == .monthly) then [(date.day : Int)]
    else sortedSet (p.monthDays.getD [])
  let days : List DayPart :=
    if silent && p.frequency == .weekly then [⟨weekday start.wall.day, none⟩]
    else p.weekdays.getD []
  let isNth (d : DayPart) : Bool := d.nth.isSome && rank ≤ 1
  let hours ← timeValues p.hours p.interval clock.hour 24 (rank == 4) (rank < 4)
  let minutes ← timeValues p.minutes p.interval clock.minute 60 (rank == 5) (rank < 5)
  let seconds ← timeValues p.seconds p.interval clock.second 60 (rank == 6) (rank < 6)
  let dayTimes ← if rank < 4 then timesOfDay hours minutes seconds else pure []
  pure
    { start := start
      frequency := p.frequency
      interval := p.interval
      weekStart := p.weekStart
      count := p.count
      til := p.til
      positions := positions
      months := months
      monthDays := monthDays.filter (· ≠ 0)
      yearDays := sortedSet (p.yearDays.getD [])
      easterDays := p.easterDays.getD []
      weeks := sortedSet (p.weeks.getD [])
      weekdays := (days.filter (!isNth ·)).map (·.weekday)
      nthWeekdays := days.filterMap fun d =>
        if isNth d then d.nth.map (d.weekday, ·) else none
      hours := hours
      minutes := minutes
      seconds := seconds
      dayTimes := dayTimes }

end Recurrence

end Showrunner

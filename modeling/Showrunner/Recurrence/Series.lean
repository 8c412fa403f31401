import Showrunner.Recurrence.Year

/-!
# The series of a rule

A rule is expanded period by period. Each period gives days and times, the rule keeps some of the
days, and the pairs of a day and a time are the candidates of the period, in order. A candidate
before the start is passed over; one beyond the last moment, or beyond the count, ends the
series, and so does the end of the calendar. The periods that a series may look at are numbered,
so that expansion ends also for a rule whose periods do not move on.
-/

namespace Showrunner

namespace Recurrence

open Calendar

/-- Where a series stands: a period and its times of day. -/
structure Cursor where
  frame : Frame
  month : Int
  day : Int
  hour : Int
  minute : Int
  second : Int
  weekday : Nat
  times : List Nat

/-- The times of day of a period that is an hour, a minute or a second. -/
def Rule.periodTimes (r : Rule) (hour minute second : Int) : Except Halt (List Nat) :=
  match r.frequency with
  | .hourly => timesOfDay [hour] r.minutes r.seconds
  | .minutely => timesOfDay [hour] [minute] r.seconds
  | _ => timesOfDay [hour] [minute] [second]

/-- Decide whether a time part lets a value pass. -/
def lets (values : List Int) (v : Int) : Bool := values.isEmpty || values.contains v

/-- The first period of a rule. -/
def Rule.opening (r : Rule) : Except Halt Cursor := do
  let date := r.start.wall.date
  let clock := r.start.wall.clock
  let rank := r.frequency.rank
  let frame ← Frame.of r date.year date.month
  let times ←
    if rank < 4 then pure r.dayTimes
    else if !lets r.hours clock.hour || (rank ≥ 5 && !lets r.minutes clock.minute) ||
        (rank ≥ 6 && !lets r.seconds clock.second) then pure []
    else r.periodTimes clock.hour clock.minute clock.second
  pure ⟨frame, date.month, date.day, clock.hour, clock.minute, clock.second,
    Calendar.weekday r.start.wall.day, times⟩

/-- The number of a day in its year. -/
def Cursor.dayOfYear (c : Cursor) : Except Halt Nat :=
  if c.month < 1 ∨ 12 < c.month ∨ c.day < 1 then .error .unusable
  else
    match Date.of c.frame.year c.month.toNat c.day.toNat with
    | .ok date => .ok (date.toDay - c.frame.firstDay)
    | .error _ => .error .unusable

/-- The days of a period: the first, and the first after it. -/
def Rule.periodDays (r : Rule) (c : Cursor) : Except Halt (Nat × Nat) :=
  match r.frequency with
  | .yearly => .ok (0, c.frame.length)
  | .monthly => monthRange (c.frame.length == 366) c.month
  | .weekly => do
      let i ← c.dayOfYear
      pure (i, i + daysToWeekStart (c.frame.weekday i) r.weekStart)
  | _ => do
      let i ← c.dayOfYear
      pure (i, i + 1)

/-- An element counted from the end where the position is negative. -/
def elementAt? {α : Type} (xs : List α) (i : Int) : Option α :=
  let i := if i < 0 then i + xs.length else i
  if i < 0 then none else xs[i.toNat]?

/-- The wall reading of a day of a frame at a time, if the calendar has it. -/
def Frame.wallAt (f : Frame) (i time : Nat) : Option Wall :=
  Wall.ofMicros? ((f.firstDay + i : Nat) * microsPerDay + time * microsPerSecond)

/-- Insert a wall reading in order, unless it is there. -/
def insertWall (w : Wall) : List Wall → List Wall
  | [] => [w]
  | v :: rest => if w = v then v :: rest else if w < v then w :: v :: rest else v :: insertWall w rest

/-- A candidate of a period: a wall reading, or a day beyond the calendar. -/
abbrev Candidate := Option Wall

/-- The candidates at the positions that a rule names. -/
def Rule.positioned (r : Rule) (f : Frame) (days times : List Nat) : List Candidate :=
  let chosen := r.positions.filterMap fun p =>
    let p := if p < 0 then p else p - 1
    let size : Int := times.length
    match elementAt? days (p / size), elementAt? times (p % size) with
    | some day, some time => some (f.wallAt day time)
    | _, _ => none
  if chosen.any Option.isNone then [none]
  else ((chosen.filterMap id).foldl (fun acc w => insertWall w acc) []).map some

/-- The candidates of a period, and whether the rule dropped one of its days. -/
def Rule.candidates (r : Rule) (c : Cursor) : Except Halt (List Candidate × Bool) := do
  let (first, stop) ← r.periodDays c
  let all := (List.range (stop - first)).map (first + ·)
  let days := all.filter (c.frame.keeps r)
  let filtered := days.length != all.length
  if c.times.isEmpty then pure ([], filtered)
  else if r.positions.isEmpty then
    pure (days.flatMap fun day => c.times.map fun time => c.frame.wallAt day time, filtered)
  else pure (r.positioned c.frame days c.times, filtered)

/-- Say that an interval of zero is divided by. -/
def zeroInterval : Halt := .fault (.division (text "integer division or modulo by zero"))

/-- The largest whole number of intervals within a distance, as a distance. -/
def wholeIntervals (distance interval : Int) : Except Halt Int :=
  if interval = 0 then .error zeroInterval else .ok (Int.fdiv distance interval * interval)

/-- Step by intervals around a cycle until a value is among those named: how often the cycle was
completed, and the value. -/
def stepTo (interval cycle : Int) (values : List Int) (turns value : Int) :
    (steps : Nat) → Option (Int × Int)
  | 0 => none
  | steps + 1 =>
      let turns := turns + Int.fdiv (value + interval) cycle
      let value := Int.fmod (value + interval) cycle
      if values.contains value then some (turns, value)
      else stepTo interval cycle values turns value steps

/-- Step once, or to the next value that a time part names. -/
def stepPart (interval cycle : Int) (values : List Int) (value : Int) : Except Halt (Int × Int) :=
  if values.isEmpty then .ok (Int.fdiv (value + interval) cycle, Int.fmod (value + interval) cycle)
  else
    match stepTo interval cycle values 0 value cycle.toNat with
    | some found => .ok found
    | none => .error .unusable

/-- Bring a day beyond the end of its month to the month where it lies; none beyond the calendar. -/
def carryDay (year month : Nat) (day : Int) : (months : Nat) → Option (Nat × Nat × Int)
  | 0 => none
  | months + 1 =>
      let size := daysInMonth year month
      if day ≤ size then some (year, month, day)
      else if month < 12 then carryDay year (month + 1) (day - size) months
      else if year < lastYear then carryDay (year + 1) 1 (day - size) months
      else none

/-- The number of months of the calendar, and one more. -/
def monthCount : Nat := 9999 * 12 + 1

/-- Move a cursor to a day that may lie beyond the end of its month. -/
def Cursor.atDay (c : Cursor) (r : Rule) (day : Int) : Except Halt (Option Cursor) :=
  if day ≤ 28 then .ok (some { c with day := day })
  else
    match carryDay c.frame.year c.month.toNat day monthCount with
    | none => .ok none
    | some (year, month, day) =>
        if year = c.frame.year ∧ (month : Int) = c.month then .ok (some { c with day := day })
        else do
          let frame ← Frame.of r year month
          pure (some { c with frame := frame, month := month, day := day })

/-- Move a cursor to a later or earlier day of the same kind, if days have passed. -/
def Cursor.afterDays (c : Cursor) (r : Rule) (days : Int) : Except Halt (Option Cursor) :=
  if days = 0 then .ok (some c) else c.atDay r (c.day + days)

/-- Step minutes until the hour passes: the days, hour and minute. -/
def stepMinutes (r : Rule) (days hour minute : Int) : (steps : Nat) → Except Halt (Int × Int × Int)
  | 0 => .error .unusable
  | steps + 1 => do
      let (hours, minute) ← stepPart r.interval 60 r.minutes minute
      let days := days + Int.fdiv (hour + hours) 24
      let hour := Int.fmod (hour + hours) 24
      if lets r.hours hour then pure (days, hour, minute)
      else stepMinutes r days hour minute steps

/-- Step seconds until hour, minute and second pass: the days, hour, minute and second. -/
def stepSeconds (r : Rule) (days hour minute second : Int) :
    (steps : Nat) → Except Halt (Int × Int × Int × Int)
  | 0 => .error .unusable
  | steps + 1 => do
      let (minutes, second) ← stepPart r.interval 60 r.seconds second
      let hours := Int.fdiv (minute + minutes) 60
      let minute := Int.fmod (minute + minutes) 60
      let days := days + Int.fdiv (hour + hours) 24
      let hour := Int.fmod (hour + hours) 24
      if lets r.hours hour && lets r.minutes minute && lets r.seconds second then
        pure (days, hour, minute, second)
      else stepSeconds r days hour minute second steps

/-- The steps after which steps around a day repeat. -/
def stepsAround (interval : Int) (cycle : Nat) : Nat := cycle / Int.gcd interval cycle

/-- The next period; none beyond the calendar. After a day of which the rule keeps nothing, the
finer frequencies go on from the last step of that day. -/
def Rule.nextPeriod (r : Rule) (c : Cursor) (filtered : Bool) : Except Halt (Option Cursor) :=
  match r.frequency with
  | .yearly => do
      let year := c.frame.year + r.interval
      if year > lastYear then pure none
      else
        let frame ← Frame.of r year c.month
        pure (some { c with frame := frame })
  | .monthly => do
      let month := c.month + r.interval
      let (years, month) :=
        if month > 12 then
          if month % 12 = 0 then (month / 12 - 1, 12) else (month / 12, month % 12)
        else (0, month)
      let year := c.frame.year + years
      if year > lastYear then pure none
      else
        let frame ← Frame.of r year month
        pure (some { c with frame := frame, month := month })
  | .weekly =>
      let back : Int :=
        if r.weekStart > c.weekday then c.weekday + 1 + (6 - r.weekStart)
        else c.weekday - r.weekStart
      { c with weekday := r.weekStart }.atDay r (c.day - back + r.interval * 7)
  | .daily => c.atDay r (c.day + r.interval)
  | .hourly => do
      let hour ←
        if filtered then do pure (c.hour + (← wholeIntervals (23 - c.hour) r.interval))
        else pure c.hour
      let (days, hour) ← stepPart r.interval 24 r.hours hour
      let times ← r.periodTimes hour c.minute c.second
      { c with hour := hour, times := times }.afterDays r days
  | .minutely => do
      let minute ←
        if filtered then do
          pure (c.minute + (← wholeIntervals (1439 - (c.hour * 60 + c.minute)) r.interval))
        else pure c.minute
      let (days, hour, minute) ← stepMinutes r 0 c.hour minute (stepsAround r.interval 1440)
      let times ← r.periodTimes hour minute c.second
      { c with hour := hour, minute := minute, times := times }.afterDays r days
  | .secondly => do
      let second ←
        if filtered then do
          pure (c.second +
            (← wholeIntervals (86399 - (c.hour * 3600 + c.minute * 60 + c.second)) r.interval))
        else pure c.second
      let (days, hour, minute, second) ←
        stepSeconds r 0 c.hour c.minute second (stepsAround r.interval 86400)
      let times ← r.periodTimes hour minute second
      { c with hour := hour, minute := minute, second := second, times := times }.afterDays r days

/-- A series under way: the candidates of the current period that are left, the current period,
whether the rule dropped one of its days, how many occurrences may still come, and how many
periods may still be looked at. -/
structure Series where
  rule : Rule
  pending : List Candidate
  cursor : Cursor
  filtered : Bool
  countLeft : Option Int
  periodsLeft : Nat

/-- What a series gives next. -/
inductive Next
  | occurrence (w : Wall) (rest : Series)
  | finished
  | endless
  | halt (halt : Halt)

/-- What comes of the candidates of a period: an occurrence and what is left, the end of the
series, a halt, or nothing yet. -/
inductive Picked
  | occurrence (w : Wall) (rest : List Candidate) (countLeft : Option Int)
  | finished
  | halt (halt : Halt)
  | nothing

/-- An occurrence of a rule is shown by the clock of its start. -/
def Rule.moment (r : Rule) (w : Wall) : Moment := ⟨w, r.start.dial⟩

/-- Decide whether a wall reading compares with the last moment of a rule. -/
def Rule.compares (r : Rule) (w : Wall) : Bool := r.til.all fun til => til.comparable (r.moment w)

/-- Decide whether a wall reading lies beyond the last moment of a rule. -/
def Rule.isOver (r : Rule) (w : Wall) : Bool := r.til.any fun til => til.before (r.moment w)

/-- Pick the first candidate that occurs. -/
def pick (r : Rule) (countLeft : Option Int) : List Candidate → Picked
  | [] => .nothing
  | none :: _ => .halt .unusable
  | some w :: rest =>
      if !r.compares w then .halt .unusable
      else if r.isOver w then .finished
      else if w < r.start.wall then pick r countLeft rest
      else
        match countLeft with
        | some n => if n ≤ 0 then .finished else .occurrence w rest (some (n - 1))
        | none => .occurrence w rest none

/-- Go on from period to period until a candidate occurs. -/
def Series.advanceFrom (r : Rule) (countLeft : Option Int) :
    (periods : Nat) → List Candidate → Cursor → Bool → Next
  | periods, pending, cursor, filtered =>
      match pick r countLeft pending with
      | .occurrence w rest countLeft => .occurrence w ⟨r, rest, cursor, filtered, countLeft, periods⟩
      | .finished => .finished
      | .halt h => .halt h
      | .nothing =>
          match periods with
          | 0 => .endless
          | periods + 1 =>
              match r.nextPeriod cursor filtered with
              | .error h => .halt h
              | .ok none => .finished
              | .ok (some cursor) =>
                  match r.candidates cursor with
                  | .error h => .halt h
                  | .ok (pending, filtered) =>
                      Series.advanceFrom r countLeft periods pending cursor filtered

/-- Take the next occurrence of a series. -/
def Series.next (s : Series) : Next :=
  Series.advanceFrom s.rule s.countLeft s.periodsLeft s.pending s.cursor s.filtered

/-- How many periods of a rule there are at most: if they move on, one a second of the calendar, its months
taken at 31 days and a year added at either end; if they move back, one a second of a month, or a month of the
calendar; and if they stay, three and as many as are counted. -/
def Rule.periodLimit (r : Rule) : Nat :=
  if r.interval > 0 then (lastYear + 2) * (12 * 31 * 86400)
  else if r.interval < 0 then 32 * 86400
  else 3 + (r.count.getD 0).toNat

/-- How many times of day a period has at most. -/
def Rule.mostTimes (r : Rule) : Nat :=
  match r.frequency with
  | .hourly => r.minutes.length * r.seconds.length
  | .minutely => r.seconds.length
  | .secondly => 1
  | _ => r.dayTimes.length

/-- How many candidates a period has at most: one for each day of a year and each time, or one for each
position. -/
def Rule.mostCandidates (r : Rule) : Nat := 366 * r.mostTimes + r.positions.length

/-- How many occurrences a rule has at most in the periods that are looked at. -/
def Rule.occurrenceLimit (r : Rule) : Nat := (r.periodLimit + 1) * r.mostCandidates

/-- Begin the series of a rule. -/
def Rule.series (r : Rule) : Except Halt Series := do
  let cursor ← r.opening
  let (pending, filtered) ← r.candidates cursor
  pure ⟨r, pending, cursor, filtered, r.count, r.periodLimit⟩

end Recurrence

end Showrunner

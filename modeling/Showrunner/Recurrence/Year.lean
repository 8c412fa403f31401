import Showrunner.Recurrence.Rule

/-!
# The days of a year under a rule

The days of a year are numbered from zero, and the first seven days of the next year follow, so
that a week may cross the end of the year. A frame holds what a rule needs to know of a year: its
length, its weekdays, the weeks, n-th weekdays and Easter offsets that the rule names.
-/

namespace Showrunner

namespace Recurrence

open Calendar

/-- Where the months of a year begin, and where the last one ends. -/
def monthStarts (leap : Bool) : List Nat :=
  if leap then [0, 31, 60, 91, 121, 152, 182, 213, 244, 274, 305, 335, 366]
  else [0, 31, 59, 90, 120, 151, 181, 212, 243, 273, 304, 334, 365]

/-- A position counted from the end where it is negative, kept within a list. -/
def clamped (length : Nat) (i : Int) : Nat :=
  ((if i < 0 then i + length else i).toNat).min length

/-- The first day of a month and the first day after it. Months outside the year count from its
end, and most of them have no range. -/
def monthRange (leap : Bool) (month : Int) : Except Halt (Nat × Nat) :=
  let starts := monthStarts leap
  let first := clamped starts.length (month - 1)
  let last := clamped starts.length (month + 1)
  match (starts.drop first).take (last - first) with
  | [a, b] => .ok (a, b)
  | _ => .error .unusable

/-- The day of Easter in a year, in the Gregorian calendar. -/
def easter (year : Nat) : Date :=
  let y : Int := year
  let g := y % 19
  let c := y / 100
  let h := (c - c / 4 - (8 * c + 13) / 25 + 19 * g + 15) % 30
  let i := h - (h / 28) * (1 - (h / 28) * (29 / (h + 1)) * ((21 - g) / 11))
  let j := (y + y / 4 + i + 2 - c + c / 4) % 7
  let p := i - j
  ⟨year, (3 + (p + 26) / 30).toNat, (1 + (p + 27 + (p + 6) / 40) % 31).toNat⟩

/-- What a rule needs to know of a year. -/
structure Frame where
  year : Nat
  length : Nat
  nextLength : Nat
  firstDay : Nat
  firstWeekday : Nat
  starts : Array Nat
  weeks : List (Nat × Nat)
  nths : List Int
  easters : List Int

/-- The weekday of a day of the frame. -/
def Frame.weekday (f : Frame) (i : Int) : Nat := ((i + f.firstWeekday) % 7).toNat

/-- The number of days from a day to the next start of a week, at least one. -/
def daysToWeekStart (weekday weekStart : Nat) : Nat := 7 - (weekday + 7 - weekStart) % 7

/-- The month of a day and its number within the month, both from either end. -/
def Frame.monthOf (f : Frame) (i : Nat) : Nat × Nat × Int :=
  if f.length ≤ i then (1, i - f.length + 1, (i : Int) - f.length - 31)
  else
    let rec go (month : Nat) : (months : Nat) → Nat
      | 0 => month
      | months + 1 => if (f.starts[month]?).any (· ≤ i) then go (month + 1) months else month
    let month := go 1 11
    let first := (f.starts[month - 1]?).getD 0
    let last := (f.starts[month]?).getD 0
    (month, i - first + 1, (i : Int) - last)

/-- The days of a week of the year, given where its first week begins. -/
def weekDays (firstWeekday weekStart first firstStart : Nat) (n : Nat) : Nat × Nat :=
  let i :=
    if n > 1 then
      first + (n - 1) * 7 - (if first = firstStart then 0 else 7 - firstStart)
    else first
  (i, i + daysToWeekStart ((i + firstWeekday) % 7) weekStart)

/-- The days of the weeks that a rule names. The first week of a year is the one with at least
four days in it. -/
def namedWeeks (r : Rule) (year length firstWeekday : Nat) : Except Halt (List (Nat × Nat)) := do
  if r.weeks.isEmpty then return []
  let firstStart := (7 - firstWeekday + r.weekStart) % 7
  let early := 4 ≤ firstStart
  let first := if early then 0 else firstStart
  let span :=
    if early then length + (firstWeekday + 7 - r.weekStart) % 7 else length - firstStart
  let count := span / 7 + span % 7 / 4
  let days := weekDays firstWeekday r.weekStart first firstStart
  let own := r.weeks.filterMap fun (given : Int) =>
    let n : Int := if given < 0 then given + count + 1 else given
    if 0 < n ∧ n ≤ count then some (days n.toNat) else none
  let next :=
    if r.weeks.contains 1 then
      let (i, stop) := days (count + 1)
      if i < length then [(i, stop)] else []
    else []
  let last ←
    if first = 0 then pure []
    else if r.weeks.contains (-1) then pure [(0, first)]
    else if year ≤ 1 then .error .unusable
    else
      let lastWeekday := Calendar.weekday (daysBeforeYear (year - 1))
      let lastStart := (7 - lastWeekday + r.weekStart) % 7
      let lastCount :=
        if 4 ≤ lastStart then
          52 + (daysInYear (year - 1) + (lastWeekday + 7 - r.weekStart) % 7) % 7 / 4
        else 52 + (length - first) % 7 / 4
      pure (if r.weeks.contains lastCount then [(0, first)] else [])
  pure (own ++ next ++ last)

/-- Say that an index lies outside a list. -/
def outsideList : Halt := .fault (.index (text "list index out of range"))

/-- Say that an index to be set lies outside a list. -/
def outsideTable : Halt := .fault (.index (text "list assignment index out of range"))

/-- The n-th weekday between two days, if it lies between them. -/
def nthWeekday (firstWeekday first last : Nat) (weekday : Nat) (n : Int) :
    Except Halt (Option Int) :=
  let size : Int := 385 - firstWeekday
  let last : Int := (last : Int) - 1
  let i := if n < 0 then last + (n + 1) * 7 else first + (n - 1) * 7
  if i < -size ∨ size ≤ i then .error outsideList
  else
    let found := (i + firstWeekday) % 7
    let i := if n < 0 then i - (found - weekday) % 7 else i + (7 - found + weekday) % 7
    .ok (if first ≤ i ∧ i ≤ last then some i else none)

/-- The n-th weekdays that a rule names in a year or a month. -/
def namedNths (r : Rule) (leap : Bool) (length firstWeekday : Nat) (month : Int) :
    Except Halt (List Int) := do
  if r.nthWeekdays.isEmpty then return []
  let ranges ←
    if r.frequency == .yearly then
      if r.months.isEmpty then pure [(0, length)] else r.months.mapM (monthRange leap)
    else do pure [← monthRange leap month]
  let found ← ranges.mapM fun (first, last) =>
    r.nthWeekdays.mapM fun (weekday, n) => nthWeekday firstWeekday first last weekday n
  pure (found.flatten.filterMap id)

/-- The days at the offsets from Easter that a rule names; an offset before the year counts from
its end. -/
def namedEasters (r : Rule) (year length firstDay : Nat) : Except Halt (List Int) :=
  r.easterDays.mapM fun offset =>
    let size : Int := length + 7
    let i : Int := (easter year).toDay - firstDay + offset
    if i < -size ∨ size ≤ i then .error outsideTable
    else .ok (if i < 0 then i + size else i)

/-- The frame of a year; the month matters to rules that count weekdays within it. -/
def Frame.of (r : Rule) (year month : Int) : Except Halt Frame := do
  if year < 1 ∨ 9999 < year then .error .unusable
  let y := year.toNat
  let leap := isLeap y
  let length := daysInYear y
  let firstDay := daysBeforeYear y
  let firstWeekday := Calendar.weekday firstDay
  let weeks ← namedWeeks r y length firstWeekday
  let nths ← namedNths r leap length firstWeekday month
  let easters ← namedEasters r y length firstDay
  pure
    { year := y
      length := length
      nextLength := daysInYear (y + 1)
      firstDay := firstDay
      firstWeekday := firstWeekday
      starts := (monthStarts leap).toArray
      weeks := weeks
      nths := nths
      easters := easters }

/-- Decide whether a rule keeps a day. -/
def Frame.keeps (f : Frame) (r : Rule) (i : Nat) : Bool :=
  let (month, day, dayFromEnd) := f.monthOf i
  let yearDay : Int := if i < f.length then i + 1 else i + 1 - f.length
  let yearDayFromEnd : Int :=
    if i < f.length then (i : Int) - f.length else (i : Int) - f.length - f.nextLength
  (r.months.isEmpty || r.months.contains month) &&
    (r.weeks.isEmpty || f.weeks.any fun (first, stop) => first ≤ i && i < stop) &&
    (r.weekdays.isEmpty || r.weekdays.contains (f.weekday i)) &&
    (r.nthWeekdays.isEmpty || f.nths.contains (i : Int)) &&
    (r.easterDays.isEmpty || f.easters.contains (i : Int)) &&
    (r.monthDays.isEmpty || r.monthDays.contains day || r.monthDays.contains dayFromEnd) &&
    (r.yearDays.isEmpty || r.yearDays.contains yearDay || r.yearDays.contains yearDayFromEnd)

end Recurrence

end Showrunner

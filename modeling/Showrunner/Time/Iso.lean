import Showrunner.Text.Digits
import Showrunner.Text.Quoted
import Showrunner.Time.Stamp

/-!
# Reading ISO 8601 text

The reader takes calendar dates, week dates and ordinal dates, with or without separators, then
any one character, then a time with an optional fraction and an optional zone. A text that is no
calendar date is read as a week date or an ordinal date. Hour 24 is midnight of the next day.
Numerals have a fixed number of digits; a fraction is cut after microseconds.
-/

namespace Showrunner

namespace Iso

open Calendar

/-- Refuse with a message. -/
def refuse {α : Type} (message : String) : Except Fault α := .error (.value (text message))

/-- Read the first `count` characters as a numeral. -/
def numeral (count : Nat) (cs : List Char) : Except Fault Nat :=
  let given := cs.take count
  if given.length = count && given.all Digits.isAscii then .ok (Digits.natOf given)
  else
    .error (.value (text "Expected " ++ Text.ofNat count ++ text " digits, got " ++
      Text.quoted (Text.ofChars given)))

/-- What a date text spells, before it is checked: year, month and day, or a day number. -/
inductive Spelled
  | calendar (year month day : Nat)
  | counted (day : Nat)

/-- Read a calendar date: year, perhaps month, perhaps day. -/
def calendarDate (cs : List Char) : Except Fault (Spelled × List Char) := do
  if cs.length < 4 then refuse "ISO string too short"
  let year ← numeral 4 cs
  match cs.drop 4 with
  | [] => pure (.calendar year 1 1, [])
  | rest@(c :: behind) =>
      let dashed := c == '-'
      let rest := if dashed then behind else rest
      if rest.length < 2 then refuse "Invalid common month"
      let month ← numeral 2 rest
      match rest.drop 2 with
      | [] => if dashed then pure (.calendar year month 1, []) else refuse "Invalid ISO format"
      | rest@(c :: behind) =>
          if dashed && c != '-' then refuse "Invalid separator in ISO string"
          let rest := if dashed then behind else rest
          if rest.length < 2 then refuse "Invalid common day"
          let day ← numeral 2 rest
          pure (.calendar year month day, rest.drop 2)

/-- The day of a weekday of a week of a year. -/
def weekDate (year week weekday : Nat) : Except Fault Spelled := do
  if week = 0 ∨ 53 < week then
    .error (.value (text "Invalid week: " ++ Text.ofNat week))
  if weekday = 0 ∨ 7 < weekday then
    .error (.value (text "Invalid weekday: " ++ Text.ofNat weekday))
  if year = 0 then refuse (DateFault.year year).message
  let day := firstWeek year + (week - 1) * 7 + (weekday - 1)
  if day < dayCount then pure (.counted day) else .error Stamp.outOfRange

/-- Read a week date or an ordinal date. -/
def countedDate (cs : List Char) : Except Fault (Spelled × List Char) := do
  if cs.length < 4 then refuse "ISO string too short"
  let year ← numeral 4 cs
  let rest := cs.drop 4
  let dashed := rest.head? == some '-'
  let rest := if dashed then rest.drop 1 else rest
  match rest with
  | 'W' :: rest =>
      let week ← numeral 2 rest
      match rest.drop 2 with
      | [] => pure (← weekDate year week 1, [])
      | rest@(c :: _) =>
          if (c == '-') != dashed then refuse "Inconsistent use of dash separator"
          let rest := if dashed then rest.drop 1 else rest
          let weekday ← numeral 1 rest
          pure (← weekDate year week weekday, rest.drop 1)
  | _ =>
      if rest.length < 3 then refuse "Invalid ordinal day"
      let ordinal ← numeral 3 rest
      if ordinal = 0 ∨ daysInYear year < ordinal then
        .error (.value (text "Invalid ordinal day " ++ Text.ofNat ordinal ++ text " for year " ++
          Text.ofNat year))
      if year = 0 then refuse (DateFault.year year).message
      pure (.counted (daysBeforeYear year + (ordinal - 1)), rest.drop 3)

/-- Read a date, as a calendar date if it is one. -/
def datePart (cs : List Char) : Except Fault (Spelled × List Char) :=
  match calendarDate cs with
  | .ok found => .ok found
  | .error _ => countedDate cs

/-- Read a zone up to the end of the text. -/
def zone (cs : List Char) : Except Fault Int := do
  if cs = ['Z'] ∨ cs = ['z'] then pure 0
  else
    if cs.length ≠ 3 ∧ cs.length ≠ 5 ∧ cs.length ≠ 6 then
      refuse "Time zone offset must be 1, 3, 5 or 6 characters"
    let negative ←
      match cs.head? with
      | some '-' => pure true
      | some '+' => pure false
      | _ => refuse "Time zone offset requires sign"
    let rest := cs.drop 1
    let hours ← numeral 2 rest
    let behind := rest.drop 2
    let behind := if behind.head? == some ':' then behind.drop 1 else behind
    let minutes ←
      if cs.length = 3 then pure 0
      else if behind.length ≤ 2 then numeral 2 behind
      else
        .error (.value (text "Expected 2 digits, got " ++ Text.quoted (Text.ofChars behind)))
    if 59 < minutes then refuse "Invalid minutes in time zone offset"
    if 23 < hours then refuse "Invalid hours in time zone offset"
    let size : Int := (hours * 60 + minutes) * 60 * microsPerSecond
    pure (if negative then -size else size)

/-- Where a zone begins. -/
def opensZone (c : Char) : Bool := c == '-' || c == '+' || c == 'Z' || c == 'z'

/-- A time text: hour, minute, second, microsecond and zone. -/
structure Time where
  hour : Nat
  minute : Nat
  second : Nat
  micro : Nat
  zone : Option Int

/-- Read a fraction of a second: a point or comma and digits, cut after six. -/
def fraction : List Char → Option (Nat × List Char)
  | c :: rest =>
      let (digits, behind) := Digits.span rest
      if (c == '.' || c == ',') && !digits.isEmpty then
        let kept := digits.take 6
        some (Digits.natOf kept * Nat.pow 10 (6 - kept.length), behind)
      else none
  | [] => none

/-- Read the end of a time: nothing, or a zone. -/
def timeEnd (t : Time) : List Char → Except Fault Time
  | [] => pure t
  | cs@(c :: _) =>
      if opensZone c then do pure { t with zone := some (← zone cs) }
      else refuse "Unused components in ISO string"

/-- Read what follows the minute: a second, perhaps a fraction, perhaps a zone. -/
def timeFromSecond (coloned : Bool) (t : Time) : List Char → Except Fault Time
  | [] => pure t
  | cs@(c :: rest) =>
      if opensZone c then timeEnd t cs
      else do
        if coloned && c != ':' then refuse "Inconsistent use of colon separator"
        let cs := if coloned then rest else cs
        let second ← numeral 2 cs
        let t := { t with second := second }
        let cs := cs.drop 2
        match fraction cs with
        | some (micro, behind) => timeEnd { t with micro := micro } behind
        | none => timeEnd t cs

/-- Read what follows the hour: a minute and so on. -/
def timeFromMinute (t : Time) : List Char → Except Fault Time
  | [] => pure t
  | cs@(c :: rest) =>
      if opensZone c then timeEnd t cs
      else do
        let coloned := c == ':'
        let cs := if coloned then rest else cs
        let minute ← numeral 2 cs
        timeFromSecond coloned { t with minute := minute } (cs.drop 2)

/-- Read a time. -/
def timePart (cs : List Char) : Except Fault Time := do
  if cs.length < 2 then refuse "ISO time too short"
  let t : Time := ⟨0, 0, 0, 0, none⟩
  let t ←
    if cs.head?.any opensZone then timeEnd t cs
    else do
      let hour ← numeral 2 cs
      timeFromMinute { t with hour := hour } (cs.drop 2)
  if t.hour = 24 ∧ (t.minute ≠ 0 ∨ t.second ≠ 0 ∨ t.micro ≠ 0) then
    refuse "Hour may only be 24 at 24:00:00.000"
  pure t

/-- The day that a date text spells. -/
def Spelled.toDay : Spelled → Except Fault Nat
  | .counted day => pure day
  | .calendar year month day =>
      match Date.of year month day with
      | .ok date => pure date.toDay
      | .error fault => refuse fault.message

/-- Read a stamp. -/
def read (cs : List Char) : Except Fault Stamp := do
  if cs.any fun c => 0x7F < c.toNat then
    refuse "ISO-8601 strings should contain only ASCII characters"
  let (date, rest) ← datePart cs
  let time ← if rest.isEmpty then pure ⟨0, 0, 0, 0, none⟩ else timePart (rest.drop 1)
  let day ← date.toDay
  let midnight := time.hour = 24
  match Clock.of (if midnight then 0 else time.hour) time.minute time.second time.micro with
  | .error fault => refuse fault.message
  | .ok clock =>
      match Wall.ofDay? (if midnight then day + 1 else day) clock with
      | some w => pure ⟨w, time.zone⟩
      | none => .error Stamp.outOfRange

end Iso

end Showrunner

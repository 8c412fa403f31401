import Showrunner.Text.Digits
import Showrunner.Text.Quoted
import Showrunner.Time.Stamp

/-!
# Reading the full spelling of a stamp

The reader takes what `Stamp.toText` writes and its relatives: a date or week date, with or
without dashes, then perhaps any one character and a time, with or without colons, a fraction
after a point or comma, and an offset with seconds if need be. Where the shape is wrong the whole
text is refused; where a part is out of range the part is named.
-/

namespace Showrunner

namespace Stamp

open Calendar

/-- Read exactly `count` digits. -/
def digits? (count : Nat) (cs : List Char) : Option (Nat × List Char) :=
  let given := cs.take count
  if given.length = count && given.all Digits.isAscii then some (Digits.natOf given, cs.drop count)
  else none

/-- Where the date ends in a text of at least seven characters. -/
def dateLength (cs : List Char) : Nat :=
  let isDigitAt (n : Nat) : Bool := (cs[n]?.map Digits.isAscii).getD false
  if cs.length = 7 then 7
  else if cs[4]? == some '-' then
    if cs[5]? == some 'W' then
      if cs[8]? == some '-' then (if isDigitAt 10 then 8 else 10) else 8
    else 10
  else if cs[4]? == some 'W' then
    let run := (cs.drop 7).takeWhile Digits.isAscii
    let stop := 7 + run.length
    if stop < 9 then stop else if stop % 2 = 0 then 7 else 8
  else 8

/-- The parts of a date text: year, month and day, or year, week and weekday. -/
inductive DateParts
  | monthly (year month day : Nat)
  | weekly (year week weekday : Nat)

/-- Read a date text to its end. -/
def dateParts? (cs : List Char) : Option DateParts := do
  let (year, rest) ← digits? 4 cs
  let dashed := rest.head? == some '-'
  let skip (cs : List Char) : List Char := if dashed then cs.drop 1 else cs
  match skip rest with
  | 'W' :: rest =>
      let (week, rest) ← digits? 2 rest
      if rest.isEmpty then pure (.weekly year week 1)
      else
        guard ((rest.head? == some '-') == dashed)
        let (weekday, rest) ← digits? 1 (skip rest)
        guard rest.isEmpty
        pure (.weekly year week weekday)
  | rest =>
      let (month, rest) ← digits? 2 rest
      guard ((rest.head? == some '-') == dashed)
      let (day, rest) ← digits? 2 (skip rest)
      guard rest.isEmpty
      pure (.monthly year month day)

/-- Read a fraction behind its mark, cut after six digits. -/
def micros? (cs : List Char) : Option (Nat × List Char) :=
  let (run, rest) := Digits.span cs
  let kept := run.take 6
  if run.isEmpty then none else some (Digits.natOf kept * Nat.pow 10 (6 - kept.length), rest)

/-- Read hour, minute, second and fraction, as far as they go. -/
def clockParts? (cs : List Char) : Option (Nat × Nat × Nat × Nat × List Char) := do
  let (hour, rest) ← digits? 2 cs
  let coloned := rest.head? == some ':'
  let skip (cs : List Char) : Option (List Char) :=
    if coloned then (if cs.head? == some ':' then some (cs.drop 1) else none) else some cs
  if rest.isEmpty then pure (hour, 0, 0, 0, [])
  else
    let (minute, rest) ← digits? 2 (← skip rest)
    if rest.isEmpty then pure (hour, minute, 0, 0, [])
    else
      let (second, rest) ← digits? 2 (← skip rest)
      match rest with
      | [] => pure (hour, minute, second, 0, [])
      | c :: rest =>
          guard (c == '.' || c == ',')
          let (micro, rest) ← micros? rest
          pure (hour, minute, second, micro, rest)

/-- Read an offset behind its sign, in microseconds. -/
def offsetSize? (cs : List Char) : Option Nat := do
  let (hour, minute, second, micro, rest) ← clockParts? cs
  guard rest.isEmpty
  pure (((hour * 60 + minute) * 60 + second) * microsPerSecond + micro)

/-- Recognise the character that ends a time and begins a zone. -/
def beginsZone (c : Char) : Bool := c == '+' || c == '-' || c == 'Z'

/-- Read the zone of a time, if it has one. -/
def zonePart? : List Char → Option (Option Int)
  | [] => some none
  | ['Z'] => some (some 0)
  | 'Z' :: _ => none
  | sign :: rest => do
      let size ← offsetSize? rest
      pure (some (if sign == '-' then -(size : Int) else size))

/-- The first day of a week date, if the week is one of the year. -/
def weekDay? (year week weekday : Nat) : Option Nat := do
  guard (1 ≤ year && year ≤ lastYear && 1 ≤ week && 1 ≤ weekday && weekday ≤ 7)
  let first := Calendar.weekday (daysBeforeYear year)
  let long := first == 3 || (first == 2 && isLeap year)
  guard (week ≤ 52 || (week == 53 && long))
  pure (firstWeek year + (week - 1) * 7 + (weekday - 1))

/-- Read a stamp in its full spelling. -/
def read (t : Text) : Except Fault Stamp :=
  let cs := Text.toChars t
  let invalid : Fault := .value (text "Invalid isoformat string: " ++ Text.quoted t)
  let length := dateLength cs
  let timeText := cs.drop (length + 1)
  let zoneText := timeText.dropWhile (!beginsZone ·)
  let parts := do
    guard (7 ≤ cs.length)
    let date ← dateParts? (cs.take length)
    if timeText.isEmpty then
      guard (cs.length ≤ length)
      pure (date, (0, 0, 0, 0, []), none)
    else
      let clock ← clockParts? (timeText.takeWhile (!beginsZone ·))
      let zone ← zonePart? zoneText
      pure (date, clock, zone)
  match parts with
  | none => .error invalid
  | some (date, (hour, minute, second, micro, rest), zone) =>
      let wide := zone.filter fun offset => (microsPerDay : Int) ≤ offset.natAbs
      if !rest.isEmpty && zone.isNone then .error invalid
      else if let some offset := wide then .error (wideOffset offset)
      else do
        let day ←
          match date with
          | .monthly year month day =>
              match Date.of year month day with
              | .ok date => .ok date.toDay
              | .error fault => .error (.value (text fault.message))
          | .weekly year week weekday =>
              match weekDay? year week weekday with
              | none => .error invalid
              | some day =>
                  if day < dayCount then .ok day
                  else .error (.value (text (DateFault.year (lastYear + 1)).message))
        match Clock.of hour minute second micro with
        | .error fault => .error (.value (text fault.message))
        | .ok clock =>
            match Wall.ofDay? day clock with
            | some w => .ok ⟨w, zone⟩
            | none => .error outOfRange

end Stamp

end Showrunner

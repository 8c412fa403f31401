import Showrunner.Recurrence.RuleSet
import Showrunner.Text.Blank
import Showrunner.Text.Case
import Showrunner.Text.Integer

/-!
# Reading rule texts

A rule text holds properties between blanks: rules, dates, rules and dates to leave out, and
perhaps a start of its own. A property without a name is a rule. A rule is a list of named parts,
and of parts with one name the last counts. The case of letters does not matter, but for the names of
zones, which are looked up as they are written. How a date is read is not said here.
-/

namespace Showrunner

namespace Recurrence

/-- Refuse a rule text. -/
def unusable {α : Type} : Except Halt α := .error .unusable

/-- Take what is there or refuse the rule text. -/
def orUnusable {α : Type} : Option α → Except Halt α
  | some a => .ok a
  | none => unusable

/-- Cut a text at each occurrence of a character. -/
def cutAt (mark : Char) (cs : List Char) : List (List Char) := cs.splitOn mark

/-- Split a text at the first occurrence of a character. -/
def splitFirst? (mark : Char) (cs : List Char) : Option (List Char × List Char) :=
  let before := cs.takeWhile (· != mark)
  match cs.drop before.length with
  | [] => none
  | _ :: behind => some (before, behind)

/-- The days of the week by name. -/
def weekdayNames : List String := ["MO", "TU", "WE", "TH", "FR", "SA", "SU"]

/-- The number of a weekday given by name. -/
def weekday? (cs : List Char) : Option Nat := weekdayNames.findIdx? (· == String.ofList cs)

/-- The frequency with a name. -/
def frequency? (cs : List Char) : Option Frequency :=
  [("YEARLY", Frequency.yearly), ("MONTHLY", .monthly), ("WEEKLY", .weekly), ("DAILY", .daily),
    ("HOURLY", .hourly), ("MINUTELY", .minutely), ("SECONDLY", .secondly)].lookup (String.ofList cs)

/-- Read an integer. -/
def integer (cs : List Char) : Except Halt Int := orUnusable (Integer.read? cs)

/-- Read a list of integers. -/
def integers (cs : List Char) : Except Halt (List Int) := (cutAt ',' cs).mapM integer

/-- Read a day of the week: its name with a number before it, or behind it in brackets. -/
def dayPart (cs : List Char) : Except Halt DayPart := do
  let (number, name) ←
    if cs.contains '(' then
      match cutAt '(' cs with
      | name :: number :: _ => pure (number.dropLast, name)
      | _ => unusable
    else if cs.isEmpty then unusable
    else
      let sign (c : Char) : Bool := c == '+' || c == '-' || Digits.isAscii c
      let number := cs.takeWhile sign
      -- Where nothing else follows, the last character stands for the name.
      let number := if number.length = cs.length then cs.dropLast else number
      pure (number, cs.drop number.length)
  let bracketed := cs.contains '('
  let nth ←
    if number.isEmpty && !bracketed then pure none else do pure (some (← integer number))
  let weekday ← orUnusable (weekday? name)
  if nth == some 0 then unusable
  pure ⟨weekday, nth⟩

/-- A rule while its parts are read: everything but the frequency has a value. -/
structure Draft where
  frequency : Option Frequency
  parts : Parts

/-- The rule of which nothing has been read. -/
def Draft.empty : Draft :=
  ⟨none, ⟨.yearly, 1, 0, none, none, none, none, none, none, none, none, none, none, none, none⟩⟩

/-- Read a part of a rule. -/
def Draft.part (dates : Dates) (d : Draft) (name value : List Char) : Except Halt Draft := do
  let set (parts : Parts) : Except Halt Draft := .ok { d with parts := parts }
  let p := d.parts
  match String.ofList name with
  | "FREQ" => pure { d with frequency := some (← orUnusable (frequency? value)) }
  | "INTERVAL" => set { p with interval := ← integer value }
  | "COUNT" => set { p with count := some (← integer value) }
  | "UNTIL" => set { p with til := some (← dates.read value) }
  | "WKST" => set { p with weekStart := ← orUnusable (weekday? value) }
  | "BYSETPOS" => set { p with positions := some (← integers value) }
  | "BYMONTH" => set { p with months := some (← integers value) }
  | "BYMONTHDAY" => set { p with monthDays := some (← integers value) }
  | "BYYEARDAY" => set { p with yearDays := some (← integers value) }
  | "BYEASTER" => set { p with easterDays := some (← integers value) }
  | "BYWEEKNO" => set { p with weeks := some (← integers value) }
  | "BYDAY" | "BYWEEKDAY" => set { p with weekdays := some (← (cutAt ',' value).mapM dayPart) }
  | "BYHOUR" => set { p with hours := some (← integers value) }
  | "BYMINUTE" => set { p with minutes := some (← integers value) }
  | "BYSECOND" => set { p with seconds := some (← integers value) }
  | _ => unusable

/-- Read the parts of a rule; its name may stand before them. -/
def readParts (dates : Dates) (cs : List Char) : Except Halt Parts := do
  let value ←
    match cutAt ':' cs with
    | [value] => pure value
    | [name, value] => if name = "RRULE".toList then pure value else unusable
    | _ => unusable
  let draft ← (cutAt ';' value).foldlM (fun (d : Draft) pair =>
    match cutAt '=' pair with
    | [name, part] => d.part dates name part
    | _ => unusable) Draft.empty
  match draft.frequency with
  | some frequency => pure { draft.parts with frequency := frequency }
  | none => unusable

/-- The mark of a zone's name. -/
def zoneMark : List Char := "TZID=".toList

/-- The texts behind the marks of zones. -/
def behindMarks : List Char → List (List Char)
  | [] => []
  | c :: rest =>
      if zoneMark.isPrefixOf (c :: rest) then (c :: rest).drop zoneMark.length :: behindMarks rest
      else behindMarks rest

/-- The names of zones in a text, each between its mark and the next colon. -/
def zoneNames (cs : List Char) : List (List Char) :=
  (cutAt ':' cs).dropLast.filterMap fun piece => (behindMarks piece).head?.filter (!·.isEmpty)

/-- The clock that the parameters of a property of dates name: that of the last zone whose name is
among those of the text, of names with the same letters the last one. A kind of value may be named
once. -/
def dateParameters (dates : Dates) (zones : List (List Char)) (parameters : List (List Char)) :
    Except Halt (Option Dial) := do
  let (dial, _) ← parameters.foldlM (fun ((dial, seen) : Option Dial × Bool) parameter =>
    if zoneMark.isPrefixOf parameter then
      let key := (behindMarks parameter).getLast?
      match zones.reverse.find? fun name => some (Text.upper (Text.ofChars name)).toChars = key with
      | some name => do pure (← dates.zone? name, seen)
      | none => pure (dial, seen)
    else if parameter = "VALUE=DATE-TIME".toList ∨ parameter = "VALUE=DATE".toList then
      if seen then unusable else pure (dial, true)
    else unusable) (none, false)
  pure dial

/-- Read the dates of a property; a date that has its own clock takes no other one. -/
def readDates (dates : Dates) (dial : Option Dial) (value : List Char) : Except Halt (List Moment) :=
  (cutAt ',' value).mapM fun date => do
    let moment ← dates.read date
    match dial with
    | none => pure moment
    | some dial =>
        match moment.dial with
        | .bare => pure { moment with dial := dial }
        | _ => unusable

/-- The properties of a rule text. -/
structure Properties where
  rules : List (List Char)
  dates : List (List Char)
  exceptRules : List (List Char)
  exceptDates : List Moment
  start : Option Moment

/-- Read a property. -/
def Properties.line (dates : Dates) (zones : List (List Char)) (p : Properties) (line : List Char) :
    Except Halt Properties := do
  let (head, value) := (splitFirst? ':' line).getD ("RRULE".toList, line)
  let cut := cutAt ';' head
  let name := cut.headD []
  let parameters := (cut.drop 1).filter fun parameter => !dates.skips name parameter
  match String.ofList name with
  | "RRULE" =>
      if parameters.isEmpty then pure { p with rules := p.rules ++ [value] } else unusable
  | "RDATE" =>
      if parameters.all (· = "VALUE=DATE-TIME".toList) then
        pure { p with dates := p.dates ++ [value] }
      else unusable
  | "EXRULE" =>
      if parameters.isEmpty then pure { p with exceptRules := p.exceptRules ++ [value] }
      else unusable
  | "EXDATE" =>
      let dial ← dateParameters dates zones parameters
      pure { p with exceptDates := p.exceptDates ++ (← readDates dates dial value) }
  | "DTSTART" =>
      let dial ← dateParameters dates zones parameters
      match ← readDates dates dial value with
      | [start] => pure { p with start := some start }
      | _ => unusable
  | _ => unusable

/-- Read a rule text; its rules start at the given moment unless it has a start of its own. -/
def readSet (dates : Dates) (start : Moment) (rule : Text) : Except Halt RuleSet := do
  let zones := zoneNames rule.toChars
  let lines := Blank.words rule.upper.toChars
  let p ← lines.foldlM (Properties.line dates zones) ⟨[], [], [], [], none⟩
  let start := p.start.getD start
  let rules ← p.rules.mapM fun value => do (← readParts dates value).toRule start
  let contained ← p.dates.mapM (readDates dates none)
  let exceptRules ← p.exceptRules.mapM fun value => do (← readParts dates value).toRule start
  pure ⟨rules, contained.flatten, exceptRules, p.exceptDates⟩

end Recurrence

end Showrunner

import Showrunner.Recurrence.Rule
import Showrunner.Text.Blank
import Showrunner.Text.Digits

/-!
# Dates within rules

The dates of a rule text are written in many ways: in one run of digits, with separators, with
the name of a month, with a time and a zone behind. The reader cuts the text into numbers, words
and single characters, collects up to three numbers for year, month and day, and settles which is
which from their size and place. A year of two digits belongs to the century around today, and what
a date leaves out is that of today. The zones that are known by name are those of universal time.
-/

namespace Showrunner

namespace Recurrence

namespace DateText

open Calendar

/-- What a character is to the tokenizer. -/
inductive Glyph
  | letter
  | digit
  | other
deriving DecidableEq, Repr

/-- Say what a character is to the tokenizer. -/
def glyphOf (c : Char) : Glyph :=
  if (Digits.decimal? c).isSome then .digit
  else if c.isAlpha then .letter
  else if c.toNat < 0x80 || Blank.isBlank c then .other
  else .letter

/-- Cut a text into runs of letters, runs of digits with at most one point or comma, and single
characters. -/
def tokens (read : List Char) (done : List (List Char)) : List Char → List (List Char)
  | [] => (if read.isEmpty then done else read.reverse :: done).reverse
  | c :: rest =>
      let close := if read.isEmpty then done else read.reverse :: done
      match read.head?.map glyphOf, glyphOf c with
      | some .letter, .letter => tokens (c :: read) done rest
      | some .digit, .digit => tokens (c :: read) done rest
      | some .digit, .other =>
          let mark := c == '.' || (c == ',' && 2 ≤ read.length)
          let more := (rest.head?.map glyphOf) == some .digit
          if mark && more && read.all fun d => glyphOf d == .digit then tokens ('.' :: read) done rest
          else tokens [] ([c] :: close) rest
      | some .other, .digit =>
          -- Only a point within a number is left open.
          tokens (c :: read) done rest
      | _, .other => tokens [] ([c] :: close) rest
      | _, _ => tokens [c] close rest

/-- The number of a run of digits. -/
def natOf (cs : List Char) : Nat := Digits.value 10 (cs.filterMap Digits.decimal?)

/-- Decide whether a token is a run of digits. -/
def isNumber (cs : List Char) : Bool := !cs.isEmpty && cs.all fun c => (Digits.decimal? c).isSome

/-- Decide whether a token is a number, perhaps with a point. -/
def isNumeric (cs : List Char) : Bool := (cs.head?.map glyphOf) == some .digit

/-- The months by name. -/
def months : List (List String) :=
  [["JAN", "JANUARY"], ["FEB", "FEBRUARY"], ["MAR", "MARCH"], ["APR", "APRIL"], ["MAY"],
    ["JUN", "JUNE"], ["JUL", "JULY"], ["AUG", "AUGUST"], ["SEP", "SEPT", "SEPTEMBER"],
    ["OCT", "OCTOBER"], ["NOV", "NOVEMBER"], ["DEC", "DECEMBER"]]

/-- The number of a month given by name. -/
def month? (cs : List Char) : Option Nat :=
  let name := String.ofList cs
  (months.findIdx? (·.contains name)).map (· + 1)

/-- The weekdays by name. -/
def weekdays : List String :=
  ["MON", "MONDAY", "TUE", "TUESDAY", "WED", "WEDNESDAY", "THU", "THURSDAY", "FRI", "FRIDAY",
    "SAT", "SATURDAY", "SUN", "SUNDAY"]

/-- The number of a weekday given by name. -/
def weekday? (cs : List Char) : Option Nat := (weekdays.findIdx? (· == String.ofList cs)).map (· / 2)

/-- The words behind hours, minutes and seconds. -/
def units : List (List String) :=
  [["H", "HOUR", "HOURS"], ["M", "MINUTE", "MINUTES"], ["S", "SECOND", "SECONDS"]]

/-- The number of a unit given by name, hours being the first. -/
def unit? (cs : List Char) : Option Nat :=
  let name := String.ofList cs
  units.findIdx? (·.contains name)

/-- The half of the day that a word names: whether it is the second one. -/
def half? (cs : List Char) : Option Bool :=
  match String.ofList cs with
  | "AM" | "A" => some false
  | "PM" | "P" => some true
  | _ => none

/-- The hour of a half of the day. -/
def hourOf (hour : Nat) (second : Bool) : Nat :=
  if hour < 12 && second then hour + 12 else if hour = 12 && !second then 0 else hour

/-- Words and characters that are passed over. -/
def fillers : List String :=
  [" ", ".", ",", ";", "-", "/", "'", "AT", "ON", "AND", "AD", "M", "T", "OF", "ST", "ND", "RD", "TH"]

/-- Decide whether a token is passed over. -/
def isFiller (cs : List Char) : Bool := fillers.contains (String.ofList cs)

/-- What a number of a date is known to be. -/
inductive Role
  | year
  | month
  | unknown
deriving DecidableEq, Repr

/-- A number of a date. -/
structure Member where
  value : Nat
  role : Role
  /-- The number has so many digits that it names its century. -/
  full : Bool

/-- Take a run of digits as a number of a date. -/
def member (cs : List Char) : Member :=
  let long := 2 < cs.length
  ⟨natOf cs, if long then .year else .unknown, long⟩

/-- What has been read of a date. -/
structure State where
  members : List Member
  weekday : Option Nat
  hour : Option Nat
  minute : Nat
  second : Nat
  micro : Nat
  halved : Bool
  zone : Option Int
  zoneSeen : Bool

/-- Nothing has been read of a date. -/
def State.empty : State := ⟨[], none, none, 0, 0, 0, false, none, false⟩

/-- Add a number to a date. -/
def State.add (s : State) (m : Member) : State := { s with members := s.members ++ [m] }

/-- Read seconds with perhaps a fraction, cut after six digits. -/
def secondsOf (cs : List Char) : Option (Nat × Nat) :=
  let whole := cs.takeWhile (· != '.')
  let behind := (cs.drop (whole.length + 1)).take 6
  if isNumber whole then some (natOf whole, natOf behind * Nat.pow 10 (6 - behind.length)) else none

/-- A number in whole units and sixtieths of one, cut. -/
def sixtieths (cs : List Char) : Option (Nat × Nat) :=
  let whole := cs.takeWhile (· != '.')
  let behind := cs.drop (whole.length + 1)
  if isNumber whole then some (natOf whole, natOf behind * 60 / Nat.pow 10 behind.length) else none

/-- Read a number of units; one behind the last unit names nothing. -/
def State.inUnits (s : State) (token : List Char) (unit : Nat) : Option State :=
  match unit with
  | 0 => do
      let (hour, minutes) ← sixtieths token
      some { s with hour := some hour, minute := if minutes = 0 then s.minute else minutes }
  | 1 => do
      let (minute, seconds) ← sixtieths token
      some { s with minute := minute, second := seconds }
  | 2 => do
      let (second, micro) ← secondsOf token
      some { s with second := second, micro := micro }
  | _ => some s

/-- Read a half of the day behind an hour of it. -/
def State.inHalf (s : State) (second : Bool) : Option State :=
  match s.hour with
  | some hour =>
      if s.halved || 12 < hour then none
      else some { s with hour := some (hourOf hour second), halved := true }
  | none => none

/-- Read a token that begins with a digit, perhaps behind a unit, and say how many more tokens it
takes. -/
def numeric (s : State) (behind : Option Nat) (token : List Char) (rest : List (List Char)) :
    Option (State × Nat) :=
  let size := token.length
  let digitsAt (i n : Nat) : Nat := natOf ((token.drop i).take n)
  let next := rest.head?
  let unit := next.bind unit?
  if s.members.length = 3 ∧ (size = 2 ∨ size = 4) ∧ s.hour.isNone ∧ unit.isNone ∧ next ≠ some [':'] then
    if !isNumber token then none
    else some ({ s with hour := some (digitsAt 0 2), minute := if size = 4 then digitsAt 2 2 else s.minute }, 0)
  else if size = 6 ∨ (6 < size ∧ token[6]? = some '.') then
    if s.members.isEmpty ∧ isNumber token then
      some (((s.add (member (token.take 2))).add (member ((token.drop 2).take 2))).add
        (member (token.drop 4)), 0)
    else do
      let (second, micro) ← secondsOf (token.drop 4)
      some ({ s with
        hour := some (digitsAt 0 2), minute := digitsAt 2 2, second := second, micro := micro }, 0)
  else if size = 8 ∨ size = 12 ∨ size = 14 then
    if !isNumber token then none
    else
      let s := ((s.add ⟨digitsAt 0 4, .year, true⟩).add (member ((token.drop 4).take 2))).add
        (member ((token.drop 6).take 2))
      let s := if 8 < size then { s with hour := some (digitsAt 8 2), minute := digitsAt 10 2 } else s
      some (if 12 < size then { s with second := digitsAt 12 2 } else s, 0)
  else if let some unit := unit then (s.inUnits token unit).map (·, 1)
  else if let some unit := behind then (s.inUnits token (unit + 1)).map (·, 0)
  else
    match rest with
    | [':'] :: minute :: more =>
        if !isNumber token || !isNumber minute then none
        else
          let s := { s with hour := some (natOf token), minute := natOf minute, second := 0 }
          match more with
          | [':'] :: second :: _ => do
              let (second, micro) ← secondsOf second
              some ({ s with second := second, micro := micro }, 4)
          | _ => some (s, 2)
    | [mark] :: more =>
        if mark == '-' || mark == '/' || mark == '.' then
          if !isNumber token then none
          else
            let s := s.add (member token)
            match more with
            | [] => some (s, 1)
            | second :: more =>
                if isFiller second then some (s, 1)
                else do
                  let second ←
                    if isNumber second then some (member second)
                    else (month? second).map fun m => ⟨m, .month, false⟩
                  let s := s.add second
                  match more with
                  | [again] :: third :: _ =>
                      if again == mark then
                        let third ←
                          match month? third with
                          | some m => some ⟨m, .month, false⟩
                          | none => if isNumber third then some (member third) else none
                        some (s.add third, 4)
                      else some (s, 2)
                  | _ => some (s, 2)
        else if isFiller [mark] then
          if isNumber token then some (s.add (member token), 1) else none
        else if isNumber token && natOf token ≤ 31 && 1 ≤ natOf token then
          some (s.add (member token), 0)
        else none
    | [] => if isNumber token then some (s.add (member token), 1) else none
    | word :: _ =>
        if isFiller word then (if isNumber token then some (s.add (member token), 1) else none)
        else if let some second := half? word then
          if isNumber token && natOf token < 24 then
            some ({ s with hour := some (hourOf (natOf token) second) }, 1)
          else none
        else if isNumber token && natOf token ≤ 31 && 1 ≤ natOf token then
          some (s.add (member token), 0)
        else none

/-- Read an offset behind its sign, in minutes, and say how many tokens it takes. -/
def offset (rest : List (List Char)) : Option (Int × Nat) :=
  match rest with
  | hours :: more =>
      if !isNumber hours then none
      else if hours.length = 4 then
        some ((natOf (hours.take 2) * 60 + natOf (hours.drop 2) : Nat), 1)
      else
        match more with
        | [':'] :: minutes :: _ =>
            if isNumber minutes then some ((natOf hours * 60 + natOf minutes : Nat), 3) else none
        | _ => if hours.length ≤ 2 then some ((natOf hours * 60 : Nat), 1) else none
  | [] => none

/-- The names of universal time. -/
def isUniversal (cs : List Char) : Bool := ["UTC", "GMT", "Z"].contains (String.ofList cs)

/-- Decide whether a word may name a zone. -/
def mayNameZone (s : State) (cs : List Char) : Bool :=
  s.hour.isSome && !s.zoneSeen && s.zone.isNone && cs.length ≤ 5 && cs.all Char.isUpper

/-- Read tokens one after the other, the unit being that of the last one. The first argument bounds
their number. -/
def readTokens : (bound : Nat) → State → (behind : Option Nat) → List (List Char) → Option State
  | _, s, _, [] => some s
  | 0, _, _, _ => none
  | bound + 1, s, behind, token :: rest =>
      if isNumeric token then do
        let (s, taken) ← numeric s behind token rest
        readTokens bound s ((rest.take taken).getLast?.bind unit?) (rest.drop taken)
      else if let some weekday := weekday? token then
        readTokens bound { s with weekday := some weekday } none rest
      else
        match month? token, rest with
        | some m, [mark] :: day :: more =>
            if mark == '-' || mark == '/' then
              if !isNumber day then none
              else
                let s := (s.add ⟨m, .month, false⟩).add (member day)
                match more with
                | [again] :: year :: more =>
                    if again == mark then
                      if isNumber year then readTokens bound (s.add (member year)) none more else none
                    else readTokens bound s none ([again] :: year :: more)
                | more => readTokens bound s none more
            else readTokens bound (s.add ⟨m, .month, false⟩) none rest
        | some m, _ => readTokens bound (s.add ⟨m, .month, false⟩) none rest
        | none, _ =>
            if let some second := half? token then do
              readTokens bound (← s.inHalf second) none rest
            else if mayNameZone s token then
              match rest with
              | [sign] :: more =>
                  if sign == '+' || sign == '-' then
                    -- A name with an offset says how far universal time is from here.
                    let flipped := if sign == '+' then '-' else '+'
                    readTokens bound { s with zoneSeen := !isUniversal token } none ([flipped] :: more)
                  else
                    readTokens bound
                      { s with zoneSeen := true, zone := if isUniversal token then some 0 else none }
                      none rest
              | _ =>
                  readTokens bound
                    { s with zoneSeen := true, zone := if isUniversal token then some 0 else none }
                    none rest
            else if s.hour.isSome && (token == ['+'] || token == ['-']) then do
              let (minutes, taken) ← offset rest
              let size : Int := minutes * 60 * microsPerSecond
              readTokens bound { s with zone := some (if token == ['-'] then -size else size) }
                none (rest.drop taken)
            else if isFiller token then readTokens bound s (unit? token) rest
            else none

/-- Settle which of three numbers is the year, the month and the day. -/
def settle (members : List Member) : Option (Member × Nat × Nat) :=
  match members with
  | [a, b, c] =>
      let years := members.countP (·.role = .year)
      let named := members.countP (·.role = .month)
      if 1 < years ∨ 1 < named then none
      else
        match a.role, b.role, c.role with
        | .year, .month, _ => some (a, b.value, c.value)
        | .year, _, .month => some (a, c.value, b.value)
        | .month, .year, _ => some (b, a.value, c.value)
        | .month, _, .year => some (c, a.value, b.value)
        | _, .year, .month => some (b, c.value, a.value)
        | _, .month, .year => some (c, b.value, a.value)
        | .month, _, _ =>
            if 31 < b.value then some (b, a.value, c.value) else some (c, a.value, b.value)
        | _, .month, _ =>
            if 31 < a.value then some (a, b.value, c.value) else some (c, b.value, a.value)
        | _, _, .month =>
            if 31 < b.value then some (b, c.value, a.value) else some (a, c.value, b.value)
        | .year, _, _ => some (a, b.value, c.value)
        | _, _, _ =>
            if 31 < a.value then some (a, b.value, c.value)
            else if 12 < a.value then some (c, b.value, a.value)
            else some (c, a.value, b.value)
  | _ => none

/-- The year, the month and the day among at most two numbers of which none is left over. -/
def settleFew (members : List Member) : Option (Option Member × Option Nat × Option Nat) :=
  let large (m : Member) : Bool := m.role = .year || 31 < m.value
  match members with
  | [] => some (none, none, none)
  | [a] =>
      if a.role = .month then some (none, some a.value, none)
      else if large a then some (some a, none, none)
      else some (none, none, some a.value)
  | [a, b] =>
      if a.role = .month then
        if large b then some (some b, some a.value, none) else some (none, some a.value, some b.value)
      else if b.role = .month then
        if large a then some (some a, some b.value, none) else some (none, some b.value, some a.value)
      else if large a then some (some a, some b.value, none)
      else if large b then some (some b, some a.value, none)
      else some (none, some a.value, some b.value)
  | _ => none

/-- The year, the month and the day among up to three numbers. -/
def settleMembers (members : List Member) : Option (Option Member × Option Nat × Option Nat) :=
  if members.length < 3 then settleFew members
  else (settle members).map fun (year, month, day) => (some year, some month, some day)

/-- The year that a number names: one of two digits lies within fifty years of now, unless a number
of the date names its century. -/
def yearOf (now : Nat) (full : Bool) (year : Nat) : Nat :=
  if 100 ≤ year ∨ full then year
  else
    let year := year + now / 100 * 100
    if now + 50 ≤ year then year - 100 else if year < now - 50 then year + 100 else year

/-- The day of a date that names none: that of today, or the last one of the month. -/
def dayWithin (today year month : Nat) : Nat := min today (daysInMonth year month)

/-- The first day from a date on with a weekday. -/
def dayOnward (date : Date) (weekday : Nat) : Nat :=
  date.toDay + (weekday + 7 - Calendar.weekday date.toDay) % 7

/-- Read a date; one without a zone has no offset. -/
def read (today : Date) (cs : List Char) : Option Moment := do
  let cut := tokens [] [] cs
  let s ← readTokens cut.length .empty none cut
  guard (!s.members.isEmpty || s.weekday.isSome || s.hour.isSome)
  let (year, month, day) ← settleMembers s.members
  let full := s.members.any (·.full)
  let year := (year.map fun m => yearOf today.year full m.value).getD today.year
  let month := month.getD today.month
  let date ← (Date.of year month (day.getD (dayWithin today.day year month))).toOption
  let clock ← (Clock.of (s.hour.getD 0) s.minute s.second s.micro).toOption
  let number :=
    match s.weekday, day with
    | some weekday, none => dayOnward date weekday
    | _, _ => date.toDay
  let w ← Wall.ofDay? number clock
  pure ⟨w, (s.zone.map Dial.fixed).getD .bare⟩

end DateText

/-- Decide whether a parameter of a property belongs to an extension. -/
def isExtension (parameter : List Char) : Bool := "X-".toList.isPrefixOf parameter

/-- The reading of dates on a day where universal time is the only zone that is known by name, and where
extensions are passed over. -/
def Dates.on (today : Calendar.Date) : Dates where
  read cs :=
    match DateText.read today cs with
    | some m => .ok m
    | none => .error .unusable
  zone? name := .ok (if ["UTC", "GMT"].contains (String.ofList name) then some (.fixed 0) else none)
  skips _ := isExtension

end Recurrence

end Showrunner

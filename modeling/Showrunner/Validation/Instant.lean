import Showrunner.Text.Utf8
import Showrunner.Time.Stamp
import Showrunner.Validation.Numeral

/-!
# Instants given as text or number

A point in time may be authored as a date with a time and a zone, as a date alone, or as a count
of seconds from the start of 1970; a count beyond twenty thousand million is one of
milliseconds. A text that is none of these is reported as a date that cannot be read. The reader
looks at octets, so that what is reported as too short is what has fewer than ten of them.
-/

namespace Showrunner

namespace Instant

open Calendar

/-- Why a text or number is no point in time. -/
inductive Trouble
  | tooShort
  | yearCharacter
  | monthCharacter
  | dayCharacter
  | separator
  | month
  | day
  | extra
  | tooLate
  | tooEarly
  | yearZero
  | notANumber
deriving DecidableEq, Repr

/-- Say why a text or number is no point in time. -/
def Trouble.message : Trouble → String
  | .tooShort => "input is too short"
  | .yearCharacter => "invalid character in year"
  | .monthCharacter => "invalid character in month"
  | .dayCharacter => "invalid character in day"
  | .separator => "invalid date separator, expected `-`"
  | .month => "month value is outside expected range of 1-12"
  | .day => "day value is outside expected range"
  | .extra => "unexpected extra characters at the end of the input"
  | .tooLate => "dates after 9999 are not supported as unix timestamps"
  | .tooEarly => "dates before 0000 are not supported as unix timestamps"
  | .yearZero => "year 0 is out of range"
  | .notANumber => "NaN values not permitted"

/-- The day of the first of January 1970. -/
def epochDay : Nat := 719162

/-- The seconds from 1970 back to the start of the year zero. -/
def earliestSecond : Int := -62167219200

/-- The last second of the year 9999, counted from 1970. -/
def latestSecond : Int := 253402300799

/-- Beyond this many a count is one of milliseconds. -/
def secondLimit : Int := 20000000000

/-- The point in time a number of seconds and microseconds after the start of 1970. -/
def ofSeconds (seconds : Int) (micros : Nat) : Except Trouble Stamp :=
  let seconds := seconds + micros / microsPerSecond
  let micros := micros % microsPerSecond
  if seconds < earliestSecond then .error .tooEarly
  else if latestSecond < seconds then .error .tooLate
  else
    match Wall.ofMicros? (epochDay * microsPerDay + seconds * microsPerSecond + micros) with
    | some w => .ok (Stamp.utc w)
    | none => .error .yearZero

/-- The point in time of a count and a fraction of a second in microseconds. -/
def ofCount (count : Int) (micros : Nat) : Except Trouble Stamp :=
  if count < -9223372036854775807 then .error .tooEarly
  else if (count.natAbs : Int) ≤ secondLimit then ofSeconds count micros
  else ofSeconds (count / 1000) ((count % 1000).toNat * 1000 + micros)

/-- The fraction of a number in microseconds, without its sign, rounded to the nearest. -/
def fractionMicros (x : Binary64) : Nat :=
  let (num, den) := x.fraction
  (2 * num * microsPerSecond + den) / (2 * den)

/-- The largest integer that is at most a number, within 64 bits. -/
def floor64 (x : Binary64) : Int :=
  match x with
  | .nan => 0
  | .infinity negative => if negative then -9223372036854775808 else 9223372036854775807
  | .finite negative _ _ =>
      let n := if negative && !x.isWhole then x.truncated - 1 else x.truncated
      max (-9223372036854775808) (min 9223372036854775807 n)

/-- The point in time of a number. -/
def ofNumber (x : Binary64) : Except Trouble Stamp :=
  match x with
  | .nan => .error .notANumber
  | x => ofCount (floor64 x) (fractionMicros x)

/-- The point in time of an integer. -/
def ofInteger (n : Int) : Except Trouble Stamp :=
  if -9223372036854775808 ≤ n ∧ n < 9223372036854775808 then ofCount n 0 else ofNumber (Binary64.ofInt n)

/-- The value of an octet that is an ASCII digit. -/
def digit? (b : UInt8) : Option Nat :=
  if 0x30 ≤ b && b ≤ 0x39 then some (b.toNat - 0x30) else none

/-- Read digits or report a trouble. -/
def digits (trouble : Trouble) (octets : List UInt8) : Except Trouble Nat :=
  octets.foldlM (fun total b =>
    match digit? b with
    | some d => .ok (total * 10 + d)
    | none => .error trouble) 0

/-- Read a date of ten octets; the year may be zero. -/
def date (octets : List UInt8) : Except Trouble Date := do
  if octets.length < 10 then .error .tooShort
  let year ← digits .yearCharacter (octets.take 4)
  if octets[4]? != some 0x2D then .error .separator
  let month ← digits .monthCharacter ((octets.drop 5).take 2)
  if octets[7]? != some 0x2D then .error .separator
  let day ← digits .dayCharacter ((octets.drop 8).take 2)
  if month = 0 ∨ 12 < month then .error .month
  if day = 0 ∨ daysInMonth year month < day then .error .day
  pure ⟨year, month, day⟩

/-- Read two digits below a bound. -/
def pair? (bound : Nat) : List UInt8 → Option (Nat × List UInt8)
  | a :: b :: rest => do
      let a ← digit? a
      let b ← digit? b
      if a * 10 + b < bound then some (a * 10 + b, rest) else none
  | _ => none

/-- Read the end of a time: nothing, or a zone and nothing more. -/
def zoneEnd? : List UInt8 → Option (Option Int)
  | [] => some none
  | [0x5A] => some (some 0)
  | [0x7A] => some (some 0)
  | 0x2B :: rest => (size? rest).map some
  | 0x2D :: rest => (size? rest).map fun n => some (-n)
  | 0xE2 :: 0x88 :: 0x92 :: rest => (size? rest).map fun n => some (-n)
  | _ => none
where
  /-- Read hours and minutes, perhaps with a colon between them. -/
  size? (octets : List UInt8) : Option Int := do
    let (hours, rest) ← pair? 24 octets
    let rest := if rest.head? == some 0x3A then rest.drop 1 else rest
    let (minutes, rest) ← pair? 60 rest
    guard rest.isEmpty
    pure ((hours * 60 + minutes : Nat) * 60 * microsPerSecond)

/-- Read a fraction behind its mark, cut after six digits. -/
def fraction? (octets : List UInt8) : Option (Nat × List UInt8) :=
  let run := octets.takeWhile fun b => (digit? b).isSome
  let kept := (run.take 6).filterMap digit?
  if run.isEmpty then none
  else some (Digits.value 10 kept * Nat.pow 10 (6 - kept.length), octets.drop run.length)

/-- Read a time with a zone to the end of the text. -/
def time? (octets : List UInt8) : Option (Clock × Option Int) := do
  let (hour, rest) ← pair? 24 octets
  guard (rest.head? == some 0x3A)
  let (minute, rest) ← pair? 60 (rest.drop 1)
  match rest with
  | 0x3A :: rest =>
      let (second, rest) ← pair? 60 rest
      match rest with
      | mark :: behind =>
          if mark == 0x2E || mark == 0x2C then
            let (micro, rest) ← fraction? behind
            pure (⟨hour, minute, second, micro⟩, ← zoneEnd? rest)
          else pure (⟨hour, minute, second, 0⟩, ← zoneEnd? rest)
      | [] => pure (⟨hour, minute, second, 0⟩, none)
  | rest => pure (⟨hour, minute, 0, 0⟩, ← zoneEnd? rest)

/-- Recognise what separates a date from a time. -/
def separates (b : UInt8) : Bool := b == 0x54 || b == 0x74 || b == 0x20 || b == 0x5F

/-- The point in time of a date and a time of day. -/
def ofParts (date : Date) (clock : Clock) (offset : Option Int) : Except Trouble Stamp :=
  if date.year = 0 then .error .yearZero
  else
    match Wall.ofDay? date.toDay clock with
    | some w => .ok ⟨w, offset⟩
    | none => .error .yearZero

/-- What a text spells where a point in time is expected. -/
inductive Spelled
  | dated (date : Date) (clock : Clock) (offset : Option Int)
  | counted (number : Except Int Binary64)

/-- Read a count: a sign, digits, and perhaps a point with digits. A whole count has at most 64
bits. -/
def count? (cs : List Char) : Option (Except Int Binary64) := do
  let negative := cs.head? == some '-'
  let cs := if negative || cs.head? == some '+' then cs.drop 1 else cs
  let (whole, rest) := Digits.span cs
  guard (!whole.isEmpty)
  let size : Int := Digits.natOf whole
  match rest with
  | [] =>
      let n := if negative then -size else size
      guard (-9223372036854775808 ≤ n && n < 9223372036854775808)
      pure (.error n)
  | '.' :: rest =>
      let (behind, rest) := Digits.span rest
      guard (!behind.isEmpty && rest.isEmpty)
      pure (.ok (Binary64.ofDecimal negative (Digits.natOf (whole ++ behind)) (-behind.length)))
  | _ => none

/-- Read a date with a time. -/
def datedTime? (octets : List UInt8) : Option (Date × Clock × Option Int) :=
  match date octets, octets.drop 10 with
  | .ok found, separator :: rest =>
      if separates separator then (time? rest).map fun (clock, offset) => (found, clock, offset)
      else none
  | _, _ => none

/-- Why a text is no point in time, and whether it was read as a date for that. -/
structure Rejection where
  trouble : Trouble
  asDate : Bool

/-- The point in time of a text. -/
def ofText (t : Text) : Except Rejection Stamp :=
  let octets := Utf8.encode t
  let plainly (answer : Except Trouble Stamp) : Except Rejection Stamp :=
    answer.mapError fun trouble => ⟨trouble, false⟩
  match datedTime? octets with
  | some (date, clock, offset) => plainly (ofParts date clock offset)
  | none =>
      let number := count? (Text.toChars t)
      let counted : Option (Except Trouble Stamp) := number.map fun
        | .error n => ofCount n 0
        | .ok x => ofNumber x
      match counted with
      | some (.ok stamp) => .ok stamp
      | _ =>
          match date octets with
          | .ok found =>
              if octets.length = 10 then plainly (ofParts found ⟨0, 0, 0, 0⟩ none)
              else .error ⟨.extra, true⟩
          | .error trouble =>
              match number, counted with
              | some (.error _), some (.error late) => .error ⟨late, true⟩
              | _, _ => .error ⟨trouble, true⟩

end Instant

end Showrunner

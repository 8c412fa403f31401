import Showrunner.Fault
import Showrunner.Time.Calendar

/-!
# Time stamps

A wall reading counts the microseconds from the first midnight of the calendar and lies before
the last one. A stamp is a wall reading with the offset of the clock that shows it, if that is
known. A stamp without an offset is read as one of universal time where an instant is needed.
Moving a stamp to universal time fails at the two ends of the calendar.
-/

namespace Showrunner

/-- The number of wall readings: the days of the years 1 to 9999 in microseconds. -/
def wallCount : Nat := 315537897600000000

/-- A reading of a wall clock with a calendar. -/
abbrev Wall := Fin wallCount

namespace Wall

open Calendar

/-- The wall reading a number of microseconds after the first midnight, if it exists. -/
def ofMicros? (n : Int) : Option Wall :=
  if h : 0 ≤ n ∧ n < (wallCount : Int) then some ⟨n.toNat, by omega⟩ else none

/-- The wall reading at a time of a day. -/
def ofDay? (day : Int) (clock : Clock) : Option Wall :=
  ofMicros? (day * microsPerDay + clock.toMicros)

/-- The number of the day. -/
def day (w : Wall) : Nat := w.val / microsPerDay

/-- The date. -/
def date (w : Wall) : Date := Date.ofDay w.day

/-- The time of day. -/
def clock (w : Wall) : Clock := Clock.ofMicros (w.val % microsPerDay)

/-- The wall reading without its fraction of a second. -/
def wholeSecond (w : Wall) : Wall := ⟨w.val - w.val % microsPerSecond, by omega⟩

end Wall

/-- A wall reading and the offset from universal time of the clock that shows it, in
microseconds. -/
structure Stamp where
  wall : Wall
  offset : Option Int
deriving DecidableEq, Repr

namespace Stamp

open Calendar

/-- Say that a stamp would leave the calendar. -/
def outOfRange : Fault := .overflow (text "date value out of range")

/-- Say that an offset is a day or longer, with its days, its seconds and its microseconds, where
there are any. -/
def wideOffset (offset : Int) : Fault :=
  let rest := (Int.fmod offset microsPerDay).toNat
  let part (name : String) (n : Nat) : Text :=
    if n = 0 then [] else text ", " ++ text name ++ text "=" ++ Text.ofInt n
  .value (text "offset must be a timedelta strictly between " ++
    text "-timedelta(hours=24) and timedelta(hours=24), not datetime.timedelta(days=" ++
    Text.ofInt (Int.fdiv offset microsPerDay) ++ part "seconds" (rest / microsPerSecond) ++
    part "microseconds" (rest % microsPerSecond) ++ text ").")

/-- The instant of a stamp, in microseconds after the first midnight of universal time. -/
def instant (s : Stamp) : Int := (s.wall.val : Int) - s.offset.getD 0

/-- A stamp of universal time. -/
def utc (w : Wall) : Stamp := ⟨w, some 0⟩

/-- Move a stamp to universal time. -/
def toUtc? (s : Stamp) : Option Stamp := (Wall.ofMicros? s.instant).map utc

/-- Move a stamp to universal time or say that it leaves the calendar. -/
def toUtc (s : Stamp) : Except Fault Stamp :=
  match s.toUtc? with
  | some u => .ok u
  | none => .error outOfRange

/-- Move a stamp by a number of microseconds, on the same clock. -/
def add? (s : Stamp) (micros : Int) : Option Stamp :=
  (Wall.ofMicros? (s.wall.val + micros)).map fun w => { s with wall := w }

/-- Move a stamp or say that it leaves the calendar. -/
def add (s : Stamp) (micros : Int) : Except Fault Stamp :=
  match s.add? micros with
  | some t => .ok t
  | none => .error outOfRange

/-- Decide whether a stamp knows its offset. -/
def isAware (s : Stamp) : Bool := s.offset.isSome

/-- Compare the instants of two stamps. -/
def before (s t : Stamp) : Bool := s.instant < t.instant

/-- Stamps compare only when both know their offsets or neither does. -/
def comparable (s t : Stamp) : Bool := s.isAware == t.isAware

/-- Say that two stamps do not compare. -/
def incomparable : Fault := .mismatch (text "can't compare offset-naive and offset-aware datetimes")

/-- Make a stamp of a date, a time of day and an offset. -/
def ofParts (date : Date) (clock : Clock) (offset : Option Int) : Except Fault Stamp :=
  match Wall.ofDay? date.toDay clock with
  | some w => .ok ⟨w, offset⟩
  | none => .error outOfRange

end Stamp

end Showrunner

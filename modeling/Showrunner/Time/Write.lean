import Showrunner.Time.Stamp

/-!
# Writing time stamps

Four spellings of a stamp are in use. The full spelling has the date, the time, a fraction of
six digits if there is one, and the offset if it is known. The plain spelling of documents is
the same with a `Z` for the offset zero and no seconds in an offset. The column spelling has a
fixed width: always six digits of fraction, always universal time. The report spelling has whole
seconds of universal time and a year without leading zeros.
-/

namespace Showrunner

namespace Stamp

open Calendar

/-- Write a date with a year of at least `width` digits. -/
def dateText (width : Nat) (d : Date) : Text :=
  Text.padded width d.year ++ text "-" ++ Text.padded 2 d.month ++ text "-" ++ Text.padded 2 d.day

/-- Write a time of day to the second. -/
def clockText (c : Clock) : Text :=
  Text.padded 2 c.hour ++ text ":" ++ Text.padded 2 c.minute ++ text ":" ++ Text.padded 2 c.second

/-- Write a fraction of a second, or nothing if there is none. -/
def fractionText (micros : Nat) : Text :=
  if micros = 0 then [] else text "." ++ Text.padded 6 micros

/-- Write date and time without an offset. -/
def localText (s : Stamp) : Text :=
  dateText 4 s.wall.date ++ text "T" ++ clockText s.wall.clock ++ fractionText s.wall.clock.micro

/-- Write the sign of an offset. -/
def signText (offset : Int) : Text := if offset < 0 then text "-" else text "+"

/-- Write an offset with its seconds and fraction if it has any. -/
def offsetText (offset : Int) : Text :=
  let size := offset.natAbs
  let seconds := size / microsPerSecond
  let micros := size % microsPerSecond
  signText offset ++ Text.padded 2 (seconds / 3600) ++ text ":" ++
    Text.padded 2 (seconds / 60 % 60) ++
    (if seconds % 60 = 0 ∧ micros = 0 then []
     else text ":" ++ Text.padded 2 (seconds % 60) ++ fractionText micros)

/-- The full spelling. -/
def toText (s : Stamp) : Text :=
  s.localText ++ (s.offset.map offsetText).getD []

/-- Write an offset in hours and minutes, zero as `Z`. -/
def zoneText (offset : Int) : Text :=
  if offset = 0 then text "Z"
  else
    let minutes := offset.natAbs / (60 * microsPerSecond)
    signText offset ++ Text.padded 2 (minutes / 60) ++ text ":" ++ Text.padded 2 (minutes % 60)

/-- The plain spelling of documents. -/
def toPlainText (s : Stamp) : Text :=
  s.localText ++ (s.offset.map zoneText).getD []

/-- The column spelling of a wall reading in universal time. -/
def columnText (w : Wall) : Text :=
  dateText 4 w.date ++ text "T" ++ clockText w.clock ++ text "." ++ Text.padded 6 w.clock.micro ++
    text "+00:00"

/-- The report spelling of a wall reading in universal time. -/
def reportText (w : Wall) : Text :=
  dateText 0 w.date ++ text "T" ++ clockText w.clock ++ text "Z"

/-- The report spelling of a stamp. -/
def toReportText (s : Stamp) : Except Fault Text := do
  let u ← s.toUtc
  pure (reportText u.wall)

end Stamp

end Showrunner

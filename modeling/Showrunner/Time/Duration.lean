import Showrunner.Binary64.Basic
import Showrunner.Fault
import Showrunner.Time.Calendar

/-!
# Durations

A duration is a whole number of microseconds and spans less than a billion days. Seconds with a
fraction are rounded to the nearest microsecond, a half to the even one.
-/

namespace Showrunner

namespace Duration

open Calendar

/-- The greatest number of days that a duration spans. -/
def longest : Int := 999999999

/-- Refuse a number of microseconds that spans too many days. -/
def ofMicros (n : Int) : Except Fault Int :=
  let days := Int.fdiv n microsPerDay
  if -2147483648 ≤ days ∧ days < 2147483648 then
    if -longest ≤ days ∧ days ≤ longest then .ok n
    else
      .error (.overflow
        (text "days=" ++ Text.ofInt days ++ text "; must have magnitude <= 999999999"))
  else .error (.overflow (text "Python int too large to convert to C int"))

/-- The duration of a whole number of seconds. -/
def ofSeconds (n : Int) : Except Fault Int := ofMicros (n * microsPerSecond)

/-- The duration of a whole number of minutes. -/
def ofMinutes (n : Int) : Except Fault Int := ofSeconds (n * 60)

/-- Round a quotient that is added to a whole number to the nearest whole number, a half to the
even one. -/
def roundEven (whole num den : Nat) : Nat :=
  let n := whole + num / den
  let rest := num % den
  if den < 2 * rest ∨ (2 * rest = den ∧ n % 2 = 1) then n + 1 else n

/-- The number of microseconds of a finite number of seconds. The microseconds of the fraction are
a number of the same format before they are rounded. -/
def microsOf (x : Binary64) : Int :=
  let (num, den) := x.fraction
  let micros := Binary64.nearest false (num * microsPerSecond) den
  let (restNum, restDen) := micros.fraction
  let whole := x.truncated.natAbs * microsPerSecond + micros.truncated.natAbs
  let size := roundEven whole restNum restDen
  if x.isNegative then -size else size

/-- The duration of a number of seconds. -/
def ofNumber : Binary64 → Except Fault Int
  | .nan => .error (.value (text "cannot convert float NaN to integer"))
  | .infinity _ => .error (.overflow (text "cannot convert float infinity to integer"))
  | x => ofMicros (microsOf x)

end Duration

end Showrunner

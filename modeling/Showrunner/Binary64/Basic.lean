/-!
# Binary64 numbers

The numbers of the interchange format are those of IEEE 754 binary64. They are kept exactly: a
finite number is a sign, a mantissa below 2^53 and an exponent of two that is at least -1074, with
a mantissa below 2^52 at the least exponent only. Rounding takes a quotient of natural numbers to
the nearest number, a tie to the even mantissa, so arithmetic on these numbers is arithmetic on
quotients followed by one rounding.
-/

namespace Showrunner

/-- A number of the binary64 format. -/
inductive Binary64
  | nan
  | infinity (negative : Bool)
  | finite (negative : Bool) (mantissa : Nat) (exponent : Int)
deriving DecidableEq, Repr, Inhabited

namespace Binary64

/-- The least exponent of two. -/
def leastExponent : Int := -1074

/-- The greatest exponent of two. -/
def greatestExponent : Int := 971

/-- The number zero. -/
def zero : Binary64 := .finite false 0 leastExponent

/-- Multiply a natural number by a power of two with an exponent that is not negative. -/
def shift (n : Nat) (power : Int) : Nat := n * Nat.pow 2 power.toNat

/-- The integer part of a quotient in units of a power of two, and what is left of it over the
divisor returned with it. -/
def quotientAt (num den : Nat) (exponent : Int) : Nat × Nat × Nat :=
  let num := shift num (-exponent)
  let den := shift den exponent
  (num / den, num % den, den)

/-- The exponent at which the integer part of a quotient has 53 bits, or the least exponent. -/
def exponentFor (num den : Nat) : Int :=
  let guess : Int := max leastExponent ((num.log2 : Int) - den.log2 - 52)
  let (q, _, _) := quotientAt num den guess
  if Nat.pow 2 53 ≤ q then guess + 1
  else if q < Nat.pow 2 52 ∧ leastExponent < guess then guess - 1
  else guess

/-- Round the quotient of two natural numbers to the nearest number. -/
def nearest (negative : Bool) (num den : Nat) : Binary64 :=
  let exponent := exponentFor num den
  let (q, rest, den) := quotientAt num den exponent
  let up := den < 2 * rest || (2 * rest == den && q % 2 == 1)
  let mantissa := if up then q + 1 else q
  let (mantissa, exponent) :=
    if mantissa = Nat.pow 2 53 then (Nat.pow 2 52, exponent + 1) else (mantissa, exponent)
  if greatestExponent < exponent then .infinity negative
  else .finite negative mantissa exponent

/-- Round an integer to the nearest number. -/
def ofInt (n : Int) : Binary64 := nearest (n < 0) n.natAbs 1

/-- Round `digits · 10^exponent` to the nearest number. Exponents far outside the format are
decided from the number of digits alone. -/
def ofDecimal (negative : Bool) (digits : Nat) (exponent : Int) : Binary64 :=
  if digits = 0 then .finite negative 0 leastExponent
  else
    -- The value lies between 2^(bits - 1) · 10^exponent and 2^bits · 10^exponent.
    let bits : Int := digits.log2 + 1
    if 1100 < exponent + (bits - 1) * 3 / 10 then .infinity negative
    else if exponent + bits * 31 / 100 + 1 < -400 then .finite negative 0 leastExponent
    else nearest negative (digits * Nat.pow 10 exponent.toNat) (Nat.pow 10 (-exponent).toNat)

/-- A number as an integer count of the least positive number, if it is finite. -/
def units? : Binary64 → Option Int
  | .finite negative mantissa exponent =>
      let size : Int := shift mantissa (exponent - leastExponent)
      some (if negative then -size else size)
  | _ => none

/-- Compare two numbers; no number is comparable with one that is no number. -/
def compare? : Binary64 → Binary64 → Option Ordering
  | .nan, _ => none
  | _, .nan => none
  | .infinity a, .infinity b => some (compare (!a) (!b))
  | .infinity a, _ => some (if a then .lt else .gt)
  | _, .infinity b => some (if b then .gt else .lt)
  | a, b => some (compare (a.units?.getD 0) (b.units?.getD 0))

/-- Decide whether one number is at most another. -/
def atMost (a b : Binary64) : Bool :=
  match compare? a b with
  | some .lt => true
  | some .eq => true
  | _ => false

/-- Decide whether one number is below another. -/
def below (a b : Binary64) : Bool := compare? a b == some .lt

/-- Decide whether a number is neither infinite nor no number. -/
def isFinite : Binary64 → Bool
  | .finite _ _ _ => true
  | _ => false

/-- The integer part of a finite number, toward zero. -/
def truncated : Binary64 → Int
  | .finite negative mantissa exponent =>
      let size : Int := (shift mantissa exponent / Nat.pow 2 (-exponent).toNat : Nat)
      if negative then -size else size
  | _ => 0

/-- Decide whether a finite number has no fraction. -/
def isWhole : Binary64 → Bool
  | .finite _ mantissa exponent => shift mantissa exponent % Nat.pow 2 (-exponent).toNat == 0
  | _ => false

/-- The part of a finite number behind the point, as a quotient without its sign. -/
def fraction : Binary64 → Nat × Nat
  | .finite _ mantissa exponent =>
      let den := Nat.pow 2 (-exponent).toNat
      (shift mantissa exponent % den, den)
  | _ => (0, 1)

/-- Recognise a number below zero; a zero with a sign is not below zero. -/
def isNegative : Binary64 → Bool
  | .nan => false
  | .infinity negative => negative
  | .finite negative mantissa _ => negative && mantissa != 0

end Binary64

end Showrunner

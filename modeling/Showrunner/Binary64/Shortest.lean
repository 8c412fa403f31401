import Showrunner.Binary64.Basic
import Showrunner.Text.Basic

/-!
# Shortest decimal

A finite number is written with the fewest significant digits that read back to it; among the
decimals with that many digits the nearest is taken, and of two equally near the one with an even
last digit. The reals that read back to a number form an interval around it that holds its ends
exactly when the mantissa is even. A grid of decimals meets the interval if and only if one of
the two neighbours of the number on the grid lies in it.

Positional notation is used from 10^-4 up to below 10^16. Elsewhere a sign and at least two
digits of exponent follow the letter `e`.
-/

namespace Showrunner

namespace Binary64

/-- The reals that read back to a finite number, as multiples of `2^exponent`. -/
structure Interval where
  low : Nat
  middle : Nat
  high : Nat
  exponent : Int
  closed : Bool

/-- The interval of a finite number in quarters of its last binary place. -/
def Interval.of (mantissa : Nat) (exponent : Int) : Interval :=
  let below := if mantissa = Nat.pow 2 52 ∧ leastExponent < exponent then 1 else 2
  { low := 4 * mantissa - below
    middle := 4 * mantissa
    high := 4 * mantissa + 2
    exponent := exponent - 2
    closed := mantissa % 2 == 0 }

/-- Decide whether `digits · 10^place` lies in the interval. -/
def Interval.holds (i : Interval) (digits : Nat) (place : Int) : Bool :=
  let scale (n : Nat) : Nat := shift n i.exponent * Nat.pow 10 (-place).toNat
  let point := shift (digits * Nat.pow 10 place.toNat) (-i.exponent)
  if i.closed then scale i.low ≤ point && point ≤ scale i.high
  else scale i.low < point && point < scale i.high

/-- The number of digits before the point of a positive quotient, negative for small ones. -/
def digitsBeforePoint (num den : Nat) : Int :=
  let guess : Int := ((num.log2 : Int) - den.log2) * 30103 / 100000 - 1
  -- The guess is at most three short.
  let reaches (p : Int) : Bool := den * Nat.pow 10 p.toNat ≤ num * Nat.pow 10 (-p).toNat
  if reaches (guess + 3) then guess + 4
  else if reaches (guess + 2) then guess + 3
  else if reaches (guess + 1) then guess + 2
  else if reaches guess then guess + 1
  else guess

/-- A decimal: its digits as a number, and the power of ten of the last digit. -/
structure Decimal where
  digits : Nat
  place : Int
deriving DecidableEq, Repr

/-- The nearest decimal in the interval whose last digit stands at `place`, if there is one. -/
def nearestAt (i : Interval) (num den : Nat) (place : Int) : Option Decimal :=
  let num := num * Nat.pow 10 (-place).toNat
  let den := den * Nat.pow 10 place.toNat
  let q := num / den
  let rest := num % den
  let low := i.holds q place
  let high := i.holds (q + 1) place
  let upIsNearer := den < 2 * rest || (2 * rest == den && q % 2 == 1)
  if low && (!high || !upIsNearer) then some ⟨q, place⟩
  else if high then some ⟨q + 1, place⟩
  else none

/-- Search the grids from the coarsest to the finest. -/
def searchFrom (i : Interval) (num den : Nat) (place : Int) : (grids : Nat) → Decimal
  | 0 => ⟨num * Nat.pow 10 (-place).toNat / (den * Nat.pow 10 place.toNat), place⟩
  | grids + 1 =>
      match nearestAt i num den place with
      | some d => d
      | none => searchFrom i num den (place - 1) grids

/-- The shortest decimal of a positive finite number. -/
def shortest (mantissa : Nat) (exponent : Int) : Decimal :=
  let num := shift mantissa exponent
  let den := Nat.pow 2 (-exponent).toNat
  searchFrom (Interval.of mantissa exponent) num den (digitsBeforePoint num den - 1) 17

/-- The digits of a number without the zeros at its end. -/
def significantDigits (n : Nat) : List Char :=
  ((Nat.repr n).toList.reverse.dropWhile (· == '0')).reverse

/-- Write the number 0.d₁d₂… · 10^point with its point in place. -/
def writePositional (digits : List Char) (point : Int) : List Char :=
  if point ≤ 0 then '0' :: '.' :: (List.replicate (-point).toNat '0' ++ digits)
  else
    let whole := point.toNat
    let padded := digits ++ List.replicate (whole - digits.length) '0'
    let behind := padded.drop whole
    padded.take whole ++ '.' :: (if behind.isEmpty then ['0'] else behind)

/-- Write the number 0.d₁d₂… · 10^point with its point behind the first digit and an exponent. -/
def writeScientific (digits : List Char) (point : Int) : List Char :=
  let exponent := point - 1
  let mark := if exponent < 0 then '-' else '+'
  let size := (Nat.repr exponent.natAbs).toList
  let size := if size.length < 2 then '0' :: size else size
  let mantissa :=
    match digits with
    | [] => []
    | [c] => [c]
    | c :: rest => c :: '.' :: rest
  mantissa ++ 'e' :: mark :: size

/-- Write a decimal with its point where the notation wants it. -/
def Decimal.write (d : Decimal) : List Char :=
  let digits := significantDigits d.digits
  let point := d.place + (Nat.repr d.digits).length
  if -4 < point ∧ point ≤ 16 then writePositional digits point else writeScientific digits point

/-- Write a number: the shortest decimal, or the name of what is not finite. -/
def write : Binary64 → List Char
  | .nan => ['n', 'a', 'n']
  | .infinity negative => (if negative then ['-'] else []) ++ ['i', 'n', 'f']
  | .finite negative mantissa exponent =>
      (if negative then ['-'] else []) ++
        (if mantissa = 0 then ['0', '.', '0'] else (shortest mantissa exponent).write)

end Binary64

end Showrunner

import Showrunner.Binary64.Basic
import Showrunner.Text.Blank
import Showrunner.Text.Digits

/-!
# Numerals of settings and rules

Settings and rules write numbers with the digits of any script, single underscores between digits,
a sign and blanks around. An integer has at most 4300 digits. Other numbers have a point or an
exponent, or are named where they are not finite.
-/

namespace Showrunner

namespace Integer

/-- Why a text is no integer. -/
inductive Unfit
  | shape
  | tooLong (digits : Nat)
deriving DecidableEq, Repr

/-- The longest integer that is read. -/
def digitLimit : Nat := 4300

/-- Say that an integer is too long. -/
def limitMessage (digits : Nat) : Text :=
  text "Exceeds the limit (4300 digits) for integer string conversion: value has " ++
    Text.ofNat digits ++ text " digits; use sys.set_int_max_str_digits() to increase the limit"

/-- Read a run of digits with single underscores between them, and return the rest. -/
def digitRun (cs : List Char) : List Nat × List Char :=
  match cs with
  | [] => ([], [])
  | c :: rest =>
      match Digits.decimal? c with
      | none => ([], cs)
      | some d =>
          let (more, behind) :=
            match rest with
            | '_' :: next :: rest' =>
                if (Digits.decimal? next).isSome then digitRun (next :: rest') else ([], rest)
            | rest => digitRun rest
          (d :: more, behind)
termination_by cs.length

/-- Split off a sign. -/
def signed (cs : List Char) : Bool × List Char :=
  match cs with
  | '-' :: rest => (true, rest)
  | '+' :: rest => (false, rest)
  | cs => (false, cs)

/-- Read an integer. -/
def read (cs : List Char) : Except Unfit Int :=
  let (negative, cs) := signed (Blank.trim cs)
  let (digits, rest) := digitRun cs
  if digits.isEmpty || !rest.isEmpty then .error .shape
  else if digitLimit < digits.length then .error (.tooLong digits.length)
  else
    let size : Int := Digits.value 10 digits
    .ok (if negative then -size else size)

/-- Read an integer, if the text is one. -/
def read? (cs : List Char) : Option Int := (read cs).toOption

/-- Read an exponent to the end: nothing, or a letter, perhaps a sign, and digits. -/
def exponent? : List Char → Option Int
  | [] => some 0
  | c :: rest =>
      if c == 'e' || c == 'E' then
        let (negative, rest) := signed rest
        let (digits, behind) := digitRun rest
        if digits.isEmpty || !behind.isEmpty then none
        else
          let size : Int := Digits.value 10 digits
          some (if negative then -size else size)
      else none

/-- Read a number that need not be whole. -/
def number? (cs : List Char) : Option Binary64 := do
  let (negative, cs) := signed (Blank.trim cs)
  let name := cs.map Char.toLower
  if name = "inf".toList ∨ name = "infinity".toList then pure (.infinity negative)
  else if name = "nan".toList then pure .nan
  else
    let (whole, rest) := digitRun cs
    let (behind, rest) :=
      match rest with
      | '.' :: rest => digitRun rest
      | rest => ([], rest)
    guard (!(whole.isEmpty && behind.isEmpty))
    let power ← exponent? rest
    pure (Binary64.ofDecimal negative (Digits.value 10 (whole ++ behind)) (power - behind.length))

end Integer

end Showrunner

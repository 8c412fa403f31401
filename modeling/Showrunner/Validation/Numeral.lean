import Showrunner.Binary64.Basic
import Showrunner.Text.Blank
import Showrunner.Text.Digits

/-!
# Numerals given as text

A number may be authored as text. Integers allow white space around, a sign, leading zeros,
single underscores between digits, and a fraction of zeros. Other numbers follow the usual
decimal grammar, with a point at either end of the digits, and the names of what is not finite.
-/

namespace Showrunner

namespace Numeral

/-- Remove underscores, of which none may open, close or touch another. -/
def withoutUnderscores (cs : List Char) : Option (List Char) :=
  let rec touches : List Char → Bool
    | '_' :: '_' :: _ => true
    | _ :: rest => touches rest
    | [] => false
  if cs.head? == some '_' || cs.getLast? == some '_' || touches cs then none
  else some (cs.filter (· != '_'))

/-- Drop leading zeros and underscores among them; a zero before the end or a point stays. -/
def withoutZeros : List Char → Option (List Char)
  | '0' :: rest =>
      let run := rest.takeWhile fun c => c == '0' || c == '_'
      match rest.drop run.length with
      | [] => some [run.getLast?.getD '0']
      | '.' :: more => some ((run.getLast?.getD '0') :: '.' :: more)
      | c :: more => if Digits.isAscii c then some (c :: more) else none
  | cs@(c :: _) => if Digits.isAscii c || c == '-' then some cs else none
  | [] => none

/-- Drop a fraction of zeros. -/
def withoutFraction (cs : List Char) : List Char :=
  let whole := cs.takeWhile (· != '.')
  match cs.drop whole.length with
  | _ :: behind => if !behind.isEmpty && behind.all (· == '0') then whole else cs
  | [] => cs

/-- What a text spells where an integer is expected. -/
inductive Whole
  | integer (n : Int)
  | tooLong
  | none

/-- The longest integer numeral that is read. -/
def digitLimit : Nat := 4300

/-- Read digits with perhaps a minus sign and no leading zeros. -/
def canonical (cs : List Char) : Whole :=
  let negative := cs.head? == some '-'
  let digits := if negative then cs.drop 1 else cs
  if digits.isEmpty || !digits.all Digits.isAscii then .none
  else if digits.head? == some '0' && digits.length ≠ 1 then .none
  else if digitLimit < digits.length then .tooLong
  else
    let size : Int := Digits.natOf digits
    .integer (if negative then -size else size)

/-- Read an integer. -/
def whole (cs : List Char) : Whole :=
  let cs := Blank.trimWhite cs
  let cs :=
    match cs with
    | '+' :: '-' :: _ => []
    | '+' :: rest => rest
    | cs => cs
  match withoutZeros cs with
  | Option.none => .none
  | some cs =>
      match withoutUnderscores (withoutFraction cs) with
      | Option.none => .none
      | some cs => canonical cs

/-- Read an exponent: nothing, or a letter, perhaps a sign, and digits to the end. -/
def exponent? : List Char → Option Int
  | [] => some 0
  | c :: rest =>
      if c == 'e' || c == 'E' then
        let negative := rest.head? == some '-'
        let digits := if negative || rest.head? == some '+' then rest.drop 1 else rest
        (Digits.nat? digits).map fun size => if negative then -(size : Int) else size
      else none

/-- Read a decimal without underscores. -/
def decimal? (cs : List Char) : Option Binary64 := do
  let negative := cs.head? == some '-'
  let cs := if negative || cs.head? == some '+' then cs.drop 1 else cs
  let name := cs.map Char.toLower
  if name = "inf".toList ∨ name = "infinity".toList then pure (.infinity negative)
  else if name = "nan".toList then pure .nan
  else
    let (whole, rest) := Digits.span cs
    let (behind, rest) :=
      match rest with
      | '.' :: rest => Digits.span rest
      | rest => ([], rest)
    guard (!(whole.isEmpty && behind.isEmpty))
    let power ← exponent? rest
    pure (Binary64.ofDecimal negative (Digits.natOf (whole ++ behind)) (power - behind.length))

/-- Read a number. -/
def number? (cs : List Char) : Option Binary64 :=
  let cs := Blank.trimWhite cs
  match decimal? cs with
  | some x => some x
  | none => (withoutUnderscores cs).bind decimal?

end Numeral

end Showrunner

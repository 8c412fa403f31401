import Showrunner.Text.Digits
import Showrunner.Text.Basic

/-!
# Tags of YAML scalars

A tag says what kind of value a node spells. A plain scalar without a tag gets one by its shape:
truth values, numbers, null, dates and times, the mark of a merge and the mark of a default;
everything else is text.
-/

namespace Showrunner

namespace Yaml

/-- A kind of value. -/
inductive Tag
  | null
  | bool
  | int
  | float
  | octets
  | moment
  | text
  | merge
  | standard
  | sequence
  | mapping
  | set
  | pairs
  | ordered
  | foreign
deriving DecidableEq, Repr

namespace Tag

/-- What the names of the known tags begin with. -/
def space : Text := Showrunner.text "tag:yaml.org,2002:"

/-- The known tags. -/
def names : List (String × Tag) :=
  [("null", .null), ("bool", .bool), ("int", .int), ("float", .float), ("binary", .octets),
    ("timestamp", .moment), ("str", .text), ("merge", .merge), ("value", .standard),
    ("seq", .sequence), ("map", .mapping), ("set", .set), ("pairs", .pairs), ("omap", .ordered)]

/-- The tag of a full name. -/
def ofName (name : Text) : Tag :=
  match Text.dropOpening? space name with
  | none => .foreign
  | some own =>
      match names.find? fun (n, _) => Showrunner.text n = own with
      | some (_, t) => t
      | none => .foreign

/-- A word as it may be written: small, with a capital, or in capitals. -/
def spellings (word : String) : List (List Char) :=
  let cs := word.toList
  let capital : List Char :=
    match cs with
    | [] => []
    | c :: rest => c.toUpper :: rest
  [cs, capital, cs.map Char.toUpper]

/-- Recognise one of the spellings of some words. -/
def isWord (words : List String) (cs : List Char) : Bool := (words.flatMap spellings).contains cs

/-- Recognise the words for truth values. -/
def isBool (cs : List Char) : Bool := isWord ["yes", "no", "true", "false", "on", "off"] cs

/-- Recognise the spellings of null. -/
def isNull (cs : List Char) : Bool := cs.isEmpty || cs == ['~'] || isWord ["null"] cs

/-- Drop a sign. -/
def unsigned : List Char → List Char
  | '+' :: rest => rest
  | '-' :: rest => rest
  | cs => cs

/-- Recognise a digit or an underscore. -/
def isDigitOrGap (c : Char) : Bool := Digits.isAscii c || c == '_'

/-- Split at colons. -/
def parts (cs : List Char) : List (List Char) :=
  match cs with
  | [] => [[]]
  | ':' :: rest => [] :: parts rest
  | c :: rest =>
      match parts rest with
      | [] => [[c]]
      | part :: more => (c :: part) :: more

/-- Recognise a number below sixty of one or two digits. -/
def isSixtieth : List Char → Bool
  | [b] => Digits.isAscii b
  | [a, b] => '0' ≤ a && a ≤ '5' && Digits.isAscii b
  | _ => false

/-- Recognise a digit and what may follow it in a number. -/
def isNumeral : List Char → Bool
  | [] => false
  | c :: rest => Digits.isAscii c && rest.all isDigitOrGap

/-- Recognise an integer: binary, octal, decimal, hexadecimal, or in base sixty. -/
def isInt (cs : List Char) : Bool :=
  match unsigned cs with
  | ['0'] => true
  | '0' :: 'b' :: ds => !ds.isEmpty && ds.all fun c => c == '0' || c == '1' || c == '_'
  | '0' :: 'x' :: ds => !ds.isEmpty && ds.all fun c => (Digits.hex? c).isSome || c == '_'
  | '0' :: ds => ds.all fun c => ('0' ≤ c && c ≤ '7') || c == '_'
  | ds =>
      match parts ds with
      | [] => false
      | whole :: rest => isNumeral whole && rest.all isSixtieth

/-- Recognise an exponent with its sign, or nothing. -/
def isExponent : List Char → Bool
  | [] => true
  | e :: sign :: ds =>
      (e == 'e' || e == 'E') && (sign == '+' || sign == '-') && !ds.isEmpty && ds.all Digits.isAscii
  | _ => false

/-- Recognise digits behind a point, and an exponent behind them. -/
def isFraction (cs : List Char) : Bool := isExponent (cs.dropWhile isDigitOrGap)

/-- Recognise a number that need not be whole. -/
def isFloat (cs : List Char) : Bool :=
  let own := unsigned cs
  let whole := own.takeWhile (· != '.')
  match own.drop whole.length with
  | [] => false
  | _ :: behind =>
      if whole.isEmpty then
        ([".inf", ".Inf", ".INF"].map String.toList).contains own ||
          ([".nan", ".NaN", ".NAN"].map String.toList).contains cs ||
          (cs == own && behind.head?.any Digits.isAscii && isFraction behind)
      else if whole.contains ':' then
        match parts whole with
        | [] => false
        | first :: rest =>
            isNumeral first && rest.all isSixtieth && behind.all isDigitOrGap
      else isNumeral whole && isFraction behind

/-- The parts of a date and, if it has one, of a time of day with the digits of its fraction and
its offset: a sign, hours and minutes. -/
structure Moment where
  year : Nat
  month : Nat
  day : Nat
  time : Option (Nat × Nat × Nat × List Char)
  zone : Option (Bool × Nat × Nat)

/-- Read between `least` and `most` digits. -/
def digits? (least most : Nat) (cs : List Char) : Option (Nat × List Char) :=
  let run := (cs.take most).takeWhile Digits.isAscii
  if least ≤ run.length then some (Digits.natOf run, cs.drop run.length) else none

/-- Read a character. -/
def mark? (c : Char) : List Char → Option (List Char)
  | [] => none
  | d :: rest => if c = d then some rest else none

/-- Recognise a blank in front of a time. -/
def isGap (c : Char) : Bool := c == ' ' || c == '\t'

/-- Read an offset to the end. -/
def zone? (cs : List Char) : Option (Option (Bool × Nat × Nat)) :=
  match cs with
  | [] => some none
  | _ =>
      match cs.dropWhile isGap with
      | [] => none
      | ['Z'] => some (some (false, 0, 0))
      | sign :: rest =>
          if sign == '+' || sign == '-' then do
            let (hours, rest) ← digits? 1 2 rest
            match rest with
            | [] => pure (some (sign == '-', hours, 0))
            | _ =>
                let rest ← mark? ':' rest
                let (minutes, rest) ← digits? 2 2 rest
                if rest.isEmpty then pure (some (sign == '-', hours, minutes)) else none
          else none

/-- Read a time of day and an offset to the end. -/
def time? (cs : List Char) : Option ((Nat × Nat × Nat × List Char) × Option (Bool × Nat × Nat)) := do
  let rest ←
    match cs with
    | 'T' :: rest => some rest
    | 't' :: rest => some rest
    | c :: rest => if isGap c then some (rest.dropWhile isGap) else none
    | [] => none
  let (hour, rest) ← digits? 1 2 rest
  let (minute, rest) ← digits? 2 2 (← mark? ':' rest)
  let (second, rest) ← digits? 2 2 (← mark? ':' rest)
  let (fraction, rest) :=
    match rest with
    | '.' :: rest => (rest.takeWhile Digits.isAscii, rest.dropWhile Digits.isAscii)
    | rest => ([], rest)
  pure ((hour, minute, second, fraction), ← zone? rest)

/-- Read a date, perhaps with a time. A date alone has two digits for its month and its day. -/
def moment? (cs : List Char) : Option Moment := do
  let (year, rest) ← digits? 4 4 cs
  let rest ← mark? '-' rest
  let month := rest.takeWhile Digits.isAscii
  let (m, rest) ← digits? 1 2 rest
  let rest ← mark? '-' rest
  let day := rest.takeWhile Digits.isAscii
  let (d, rest) ← digits? 1 2 rest
  match rest with
  | [] => if month.length = 2 ∧ day.length = 2 then pure ⟨year, m, d, none, none⟩ else none
  | _ =>
      let (time, zone) ← time? rest
      pure ⟨year, m, d, some time, zone⟩

/-- The tag of a plain scalar. -/
def ofPlain (cs : List Char) : Tag :=
  if isBool cs then .bool
  else if isFloat cs then .float
  else if isInt cs then .int
  else if cs == ['<', '<'] then .merge
  else if isNull cs then .null
  else if (moment? cs).isSome then .moment
  else if cs == ['='] then .standard
  else .text

end Tag

end Yaml

end Showrunner

import Showrunner.Json.Basic
import Showrunner.Text.Digits
import Showrunner.Text.Integer

/-!
# Reading interchange documents

The grammar is that of the JSON format with three more numerals: `NaN`, `Infinity` and
`-Infinity`. A reader returns the rest of the document, and a fault carries the number of code
points left where it was found, so that a position is the length of the document less what is
left. Containers nest to a limit, and so do the digits of an integer numeral; the depth is the
measure by which reading ends.
-/

namespace Showrunner

namespace Json

/-- What is wrong with a document. -/
inductive Malformed
  | value
  | name
  | colon
  | comma
  | unterminated
  | control
  | escape
  | unicodeEscape
  | extra
  | byteOrderMark
deriving DecidableEq, Repr

/-- Say what is wrong with a document. -/
def Malformed.message : Malformed → String
  | .value => "Expecting value"
  | .name => "Expecting property name enclosed in double quotes"
  | .colon => "Expecting ':' delimiter"
  | .comma => "Expecting ',' delimiter"
  | .unterminated => "Unterminated string starting at"
  | .control => "Invalid control character at"
  | .escape => "Invalid \\escape"
  | .unicodeEscape => "Invalid \\uXXXX escape"
  | .extra => "Extra data"
  | .byteOrderMark => "Unexpected UTF-8 BOM (decode using utf-8-sig)"

/-- A kind of container. -/
inductive Container
  | object
  | array
deriving DecidableEq, Repr

/-- Why a document is refused. -/
inductive Refusal
  | malformed (fault : Malformed) (left : Nat)
  | tooManyDigits (count : Nat)
  | tooDeep (container : Container)
deriving DecidableEq, Repr

/-- How deep containers nest, and how many digits an integer numeral has, at most. -/
structure Limits where
  depth : Nat
  digits : Option Nat

/-- The limits for documents that come from outside. -/
def Limits.outside : Limits := ⟨990, some Integer.digitLimit⟩

/-- Say that containers nest too deep. -/
def depthLimitMessage (container : Container) : Text :=
  text "maximum recursion depth exceeded while decoding a JSON " ++
    (match container with
      | .object => text "object"
      | .array => text "array") ++
    text " from a unicode string"

/-- A reader's answer: what was read and the rest of the document. -/
abbrev Reading (α : Type) := Except Refusal (α × Text)

/-- Recognise a blank of the format. -/
def isBlank : CodePoint → Bool
  | .scalar c => c == ' ' || c == '\t' || c == '\n' || c == '\r'
  | .surrogate _ => false

/-- Pass over blanks. -/
def skipBlanks (t : Text) : Text := t.dropWhile isBlank

/-- The character that a one-letter escape spells. -/
def simpleEscape? : CodePoint → Option Char
  | .scalar '"' => some '"'
  | .scalar '\\' => some '\\'
  | .scalar '/' => some '/'
  | .scalar 'b' => some '\x08'
  | .scalar 'f' => some '\x0c'
  | .scalar 'n' => some '\n'
  | .scalar 'r' => some '\r'
  | .scalar 't' => some '\t'
  | _ => none

/-- The number that four hexadecimal digits spell. -/
def hex4? (a b c d : CodePoint) : Option Nat := do
  let a ← Digits.hex? a.toChar
  let b ← Digits.hex? b.toChar
  let c ← Digits.hex? c.toChar
  let d ← Digits.hex? d.toChar
  pure (((a * 16 + b) * 16 + c) * 16 + d)

/-- Add an escaped code point to those read, the latest first. A second half of a pair joins a
first half that was escaped just before it. -/
def addEscaped (read : Text) (half : Bool) (p : CodePoint) : Text :=
  match half, read with
  | true, first :: before =>
      match CodePoint.joinHalves? first p with
      | some c => .scalar c :: before
      | none => p :: read
  | _, _ => p :: read

/-- Read a string behind its opening quote. `opened` is what was left at the quote, `read` holds
the code points read, the latest first, and `half` says that the latest was an escaped first
half of a pair. -/
def readChars (opened : Nat) (read : Text) (half : Bool) : Text → Reading Text
  | [] => .error (.malformed .unterminated opened)
  | .scalar '"' :: rest => .ok (read.reverse, rest)
  | .scalar '\\' :: .scalar 'u' :: a :: b :: c :: d :: rest =>
      match hex4? a b c d, rest with
      | some n, _ :: _ =>
          let p := (CodePoint.ofValue? n).getD (.scalar '\uFFFD')
          let read := addEscaped read half p
          readChars opened read (p.isHighHalf) rest
      | _, _ => .error (.malformed .unicodeEscape (rest.length + 5))
  | .scalar '\\' :: .scalar 'u' :: rest => .error (.malformed .unicodeEscape (rest.length + 1))
  | .scalar '\\' :: p :: rest =>
      match simpleEscape? p with
      | some c => readChars opened (.scalar c :: read) false rest
      | none => .error (.malformed .escape (rest.length + 2))
  | [.scalar '\\'] => .error (.malformed .unterminated opened)
  | p :: rest =>
      if p.value < 0x20 then .error (.malformed .control (rest.length + 1))
      else readChars opened (p :: read) false rest

/-- Split off the opening run of ASCII digits. -/
def digitRun (t : Text) : List Char × Text :=
  let run := t.takeWhile fun p => Digits.isAscii p.toChar
  (Text.toChars run, t.drop run.length)

/-- Read a fraction: a point with a digit behind it. -/
def readFraction : Text → Option (List Char × Text)
  | .scalar '.' :: rest =>
      let (digits, rest) := digitRun rest
      if digits.isEmpty then none else some (digits, rest)
  | _ => none

/-- Read an exponent: a letter, perhaps a sign, and digits. -/
def readExponent : Text → Option (Int × Text)
  | .scalar c :: rest =>
      if c == 'e' || c == 'E' then
        let (negative, rest) :=
          match rest with
          | .scalar '-' :: rest => (true, rest)
          | .scalar '+' :: rest => (false, rest)
          | rest => (false, rest)
        let (digits, rest) := digitRun rest
        let size : Int := Digits.natOf digits
        if digits.isEmpty then none else some (if negative then -size else size, rest)
      else none
  | _ => none

/-- Read a numeral behind its integer part. -/
def readBehindWhole (limit : Option Nat) (negative : Bool) (whole : List Char) (t : Text) :
    Reading Json :=
  let fraction := readFraction t
  let (behind, rest) := fraction.getD ([], t)
  let exponent := readExponent rest
  let (power, rest) := exponent.getD (0, rest)
  if fraction.isNone && exponent.isNone then
    if limit.any (· < whole.length) then .error (.tooManyDigits whole.length)
    else
      let size : Int := Digits.natOf whole
      .ok (.int (if negative then -size else size), rest)
  else
    let digits := Digits.natOf (whole ++ behind)
    .ok (.float (Binary64.ofDecimal negative digits (power - behind.length)), rest)

/-- Read a numeral behind its sign. A zero in front is the whole integer part. -/
def readNumeral (limit : Option Nat) (negative : Bool) (t : Text) : Option (Reading Json) :=
  match digitRun t with
  | ([], _) => none
  | ('0' :: more, rest) => some (readBehindWhole limit negative ['0'] (Text.ofChars more ++ rest))
  | (run, rest) => some (readBehindWhole limit negative run rest)

/-- Read a numeral with its sign. -/
def readSigned (limit : Option Nat) : Text → Option (Reading Json)
  | .scalar '-' :: rest => readNumeral limit true rest
  | t => readNumeral limit false t

/-- The values with a name of their own. -/
def constants : List (Text × Json) :=
  [ (text "null", .null), (text "true", .bool true), (text "false", .bool false),
    (text "NaN", .float .nan), (text "Infinity", .float (.infinity false)),
    (text "-Infinity", .float (.infinity true)) ]

/-- Read a value that has no parts. -/
def readAtom (limit : Option Nat) (t : Text) : Reading Json :=
  match constants.findSome? fun (name, v) => (Text.dropOpening? name t).map (v, ·) with
  | some found => .ok found
  | none => (readSigned limit t).getD (.error (.malformed .value t.length))

/-- Read the items of an array up to its end, at the first item. -/
def readItems (item : Text → Reading Json) :
    (fuel : Nat) → (read : List Json) → Text → Except Refusal (List Json × Text)
  | 0, _, t => .error (.malformed .value t.length)
  | fuel + 1, read, t => do
      let (v, rest) ← item t
      match skipBlanks rest with
      | .scalar ']' :: rest => .ok ((v :: read).reverse, rest)
      | .scalar ',' :: rest => readItems item fuel (v :: read) (skipBlanks rest)
      | rest => .error (.malformed .comma rest.length)

/-- Read the fields of an object up to its end, at the first name. -/
def readFields (item : Text → Reading Json) :
    (fuel : Nat) → (read : Fields) → Text → Except Refusal (Fields × Text)
  | 0, _, t => .error (.malformed .name t.length)
  | fuel + 1, read, t =>
      match t with
      | .scalar '"' :: rest => do
          let (name, rest) ← readChars t.length [] false rest
          match skipBlanks rest with
          | .scalar ':' :: rest =>
              let (v, rest) ← item (skipBlanks rest)
              let read := Fields.put name v read
              match skipBlanks rest with
              | .scalar '\x7d' :: rest => .ok (read, rest)
              | .scalar ',' :: rest => readFields item fuel read (skipBlanks rest)
              | rest => .error (.malformed .comma rest.length)
          | rest => .error (.malformed .colon rest.length)
      | _ => .error (.malformed .name t.length)

/-- Read a value. The first argument bounds how deep containers nest. -/
def readValue (limit : Option Nat) : (depth : Nat) → Text → Except Refusal (Json × Text)
  | _, .scalar '"' :: rest => do
      let (t, rest) ← readChars (rest.length + 1) [] false rest
      .ok (.str t, rest)
  | 0, .scalar '[' :: _ => .error (.tooDeep .array)
  | 0, .scalar '\x7b' :: _ => .error (.tooDeep .object)
  | depth + 1, .scalar '[' :: rest =>
      match skipBlanks rest with
      | .scalar ']' :: rest => .ok (.arr [], rest)
      | rest => do
          let (items, rest) ← readItems (readValue limit depth) (rest.length + 1) [] rest
          .ok (.arr items, rest)
  | depth + 1, .scalar '\x7b' :: rest =>
      match skipBlanks rest with
      | .scalar '\x7d' :: rest => .ok (.obj [], rest)
      | rest => do
          let (fields, rest) ← readFields (readValue limit depth) (rest.length + 1) [] rest
          .ok (.obj fields, rest)
  | _, t => readAtom limit t

/-- Read one value with blanks around it. -/
def readAlone (limits : Limits) (document : Text) : Except Refusal Json := do
  let (v, rest) ← readValue limits.digits limits.depth (skipBlanks document)
  match skipBlanks rest with
  | [] => .ok v
  | rest => .error (.malformed .extra rest.length)

/-- Read a document: one value with blanks around it, and no mark in front. -/
def read (limits : Limits) (document : Text) : Except Refusal Json :=
  match document with
  | .scalar '\uFEFF' :: rest => .error (.malformed .byteOrderMark (rest.length + 1))
  | _ => readAlone limits document

end Json

end Showrunner

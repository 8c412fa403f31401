import Showrunner.Fault
import Showrunner.Text.Digits

/-!
# Places in a YAML document

A cursor stands at a place of a document and knows the rest of it and the column. A document that
is malformed is told apart from one that asks for a value that does not exist: the first says
nothing, the second is a fault.
-/

namespace Showrunner

namespace Yaml

/-- Why a document has no value. -/
inductive Refusal
  | malformed
  | unfit (fault : Fault)

/-- Recognise the end of a line. -/
def isBreak (c : Char) : Bool := c == '\n' || c == '\x85' || c == '\u2028' || c == '\u2029'

/-- Recognise a blank within a line. -/
def isBlank (c : Char) : Bool := c == ' ' || c == '\t'

/-- Recognise the end of a line or of the document. -/
def endsLine : Option Char → Bool
  | none => true
  | some c => isBreak c

/-- Recognise a blank, the end of a line or the end of the document. -/
def endsWord : Option Char → Bool
  | none => true
  | some c => isBreak c || isBlank c

/-- Recognise a character that may stand in a document. -/
def mayStand (c : Char) : Bool :=
  let n := c.toNat
  n == 0x9 || n == 0xA || n == 0xD || (0x20 ≤ n && n ≤ 0x7E) || n == 0x85 ||
    (0xA0 ≤ n && n ≤ 0xFFFD) || 0x10000 ≤ n

/-- Recognise a character of a plain name. -/
def isNameChar (c : Char) : Bool :=
  Digits.isAscii c || ('a' ≤ c && c ≤ 'z') || ('A' ≤ c && c ≤ 'Z') || c == '-' || c == '_'

/-- A place in a document. -/
structure Cursor where
  rest : List Char
  index : Nat
  line : Nat
  column : Nat
deriving Repr

namespace Cursor

/-- The start of a document. -/
def start (cs : List Char) : Cursor := ⟨cs, 0, 0, 0⟩

/-- The character at a distance. -/
def peek (c : Cursor) (distance : Nat) : Option Char := c.rest[distance]?

/-- The next character. -/
def next (c : Cursor) : Option Char := c.rest.head?

/-- Decide whether the next character satisfies a test. -/
def sees (c : Cursor) (p : Char → Bool) : Bool := c.next.any p

/-- Go on by a character. A mark of byte order takes no column. -/
def step (c : Cursor) : Cursor :=
  match c.rest with
  | [] => c
  | ch :: rest =>
      if isBreak ch then ⟨rest, c.index + 1, c.line + 1, 0⟩
      else ⟨rest, c.index + 1, c.line, if ch = '\uFEFF' then c.column else c.column + 1⟩

/-- Go on by a number of characters. -/
def skip (c : Cursor) : Nat → Cursor
  | 0 => c
  | n + 1 => c.step.skip n

/-- Go on while characters satisfy a test, and return them. -/
def takeWhile (c : Cursor) (p : Char → Bool) : List Char × Cursor :=
  let run := c.rest.takeWhile p
  (run, c.skip run.length)

/-- Go on while characters satisfy a test. -/
def dropWhile (c : Cursor) (p : Char → Bool) : Cursor := (c.takeWhile p).2

/-- Go on to the end of the line. -/
def toLineEnd (c : Cursor) : Cursor := c.dropWhile (!isBreak ·)

/-- Go on over the end of a line and return what it counts as; the two separators of Unicode count
as themselves. -/
def lineBreak (c : Cursor) : List Char × Cursor :=
  match c.next with
  | some '\n' | some '\x85' => (['\n'], c.step)
  | some '\u2028' => (['\u2028'], c.step)
  | some '\u2029' => (['\u2029'], c.step)
  | _ => ([], c)

/-- Recognise a mark of three equal characters. -/
def atMark (c : Cursor) (mark : Char) : Bool :=
  c.rest.take 3 == [mark, mark, mark] && endsWord (c.peek 3)

/-- Recognise a mark between documents. -/
def atDocumentMark (c : Cursor) : Bool := c.atMark '-' || c.atMark '.'

/-- How many steps are left, and one. -/
def fuel (c : Cursor) : Nat := c.rest.length + 1

end Cursor

end Yaml

end Showrunner

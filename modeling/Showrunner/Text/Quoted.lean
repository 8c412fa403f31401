import Showrunner.Text.Printable

/-!
# Quoted names

A warning names an id between quotes so that the reader sees where it ends. The quotes are single
unless the id has a single quote and no double quote. A backslash and the chosen quote get a
backslash; what is not printable is written as an escape of the shortest fitting width.
-/

namespace Showrunner

namespace Quoted

/-- Write a number below 16 as a lower-case hexadecimal digit. -/
def hexDigit (n : Nat) : Char := if n < 10 then Char.ofNat (0x30 + n) else Char.ofNat (0x57 + n)

/-- Write the last `width` hexadecimal digits of a number. -/
def hex : (width n : Nat) → List Char
  | 0, _ => []
  | width + 1, n => hex width (n / 16) ++ [hexDigit (n % 16)]

/-- Write one code point between quotes of the given kind. -/
def escape (quote : Char) (p : CodePoint) : Text :=
  if p = .scalar quote ∨ p = .scalar '\\' then ['\\', p]
  else if p = .scalar '\t' then text "\\t"
  else if p = .scalar '\n' then text "\\n"
  else if p = .scalar '\r' then text "\\r"
  else if p.isPrintable then [p]
  else if p.value < 0x100 then text "\\x" ++ Text.ofChars (hex 2 p.value)
  else if p.value < 0x10000 then text "\\u" ++ Text.ofChars (hex 4 p.value)
  else text "\\U" ++ Text.ofChars (hex 8 p.value)

/-- Choose the quote: double quotes for a text with single quotes only. -/
def quoteFor (t : Text) : Char :=
  if t.contains (.scalar '\'') && !t.contains (.scalar '"') then '"' else '\''

end Quoted

/-- Write a text between quotes. -/
def Text.quoted (t : Text) : Text :=
  let quote := Quoted.quoteFor t
  .scalar quote :: (t.flatMap (Quoted.escape quote) ++ [.scalar quote])

end Showrunner

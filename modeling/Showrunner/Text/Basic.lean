/-!
# Text as authored

Ids, labels, names and messages are authored elsewhere and reach the library through an
interchange format that can spell half of a surrogate pair. A text is therefore a list of code
points, of which some are no characters. Each sublanguage with a grammar of its own (dates,
rules, settings) reads the characters of a text and sees a stray half as U+FFFD.
-/

namespace Showrunner

/-- A code point is a character or one half of a surrogate pair that stands alone. -/
inductive CodePoint
  | scalar (c : Char)
  | surrogate (n : Fin 0x800)
deriving DecidableEq, Repr, Inhabited

namespace CodePoint

instance : Coe Char CodePoint := ⟨.scalar⟩

/-- Number a code point in the code space. -/
def value : CodePoint → Nat
  | .scalar c => c.toNat
  | .surrogate n => 0xD800 + n.val

/-- Find the code point of a number, if the number lies in the code space. -/
def ofValue? (n : Nat) : Option CodePoint :=
  if h : 0xD800 ≤ n ∧ n < 0xE000 then some (.surrogate ⟨n - 0xD800, by omega⟩)
  else if n < 0x110000 then some (.scalar (Char.ofNat n))
  else none

/-- Show a code point as a character, a stray half as the replacement character. -/
def toChar : CodePoint → Char
  | .scalar c => c
  | .surrogate _ => '\uFFFD'

/-- Recognise the first half of a pair. -/
def isHighHalf : CodePoint → Bool
  | .scalar _ => false
  | .surrogate n => n.val < 0x400

/-- Join two halves of a pair into the character that they spell. -/
def joinHalves? : CodePoint → CodePoint → Option Char
  | .surrogate a, .surrogate b =>
      if a.val < 0x400 ∧ 0x400 ≤ b.val then
        some (Char.ofNat (0x10000 + a.val * 0x400 + (b.val - 0x400)))
      else none
  | _, _ => none

end CodePoint

/-- A text is the list of its code points. -/
abbrev Text := List CodePoint

namespace Text

/-- Take characters as a text. -/
def ofChars (cs : List Char) : Text := cs.map .scalar

/-- Take a string as a text. -/
def ofString (s : String) : Text := ofChars s.toList

instance : Coe String Text := ⟨ofString⟩

/-- List the characters of a text, a stray half as the replacement character. -/
def toChars (t : Text) : List Char := t.map CodePoint.toChar

/-- Show a text as a string, a stray half as the replacement character. -/
def toString (t : Text) : String := String.ofList (toChars t)

/-- A text is well formed when no half of a pair stands alone in it. -/
def isScalar (t : Text) : Bool :=
  t.all fun
    | .scalar _ => true
    | .surrogate _ => false

/-- Compare texts by the values of their code points, the shorter of two first. -/
def before : Text → Text → Bool
  | _, [] => false
  | [], _ :: _ => true
  | a :: s, b :: t => a.value < b.value || (a == b && before s t)

/-- Compare texts as `before` does and let equal texts pass. -/
def atMost (s t : Text) : Bool := !before t s

/-- Write a natural number in decimal. -/
def ofNat (n : Nat) : Text := ofString (Nat.repr n)

/-- Write an integer in decimal. -/
def ofInt : Int → Text
  | .ofNat n => ofNat n
  | .negSucc n => .scalar '-' :: ofNat (n + 1)

/-- Write a natural number in decimal with at least `width` digits. -/
def padded (width n : Nat) : Text :=
  let digits := ofNat n
  List.replicate (width - digits.length) (.scalar '0') ++ digits

/-- Drop an ending if the text has it. -/
def dropEnding? (ending t : Text) : Option Text :=
  if ending.isSuffixOf t then some (t.take (t.length - ending.length)) else none

/-- Drop an opening if the text has it. -/
def dropOpening? : Text → Text → Option Text
  | [], t => some t
  | _ :: _, [] => none
  | a :: s, b :: t => if a = b then dropOpening? s t else none

/-- Drop code points from the end while they satisfy a test. -/
def dropEndWhile (p : CodePoint → Bool) (t : Text) : Text :=
  (t.reverse.dropWhile p).reverse

/-- Join texts with a text between any two of them. -/
def joined (between : Text) : List Text → Text
  | [] => []
  | [t] => t
  | t :: rest => t ++ between ++ joined between rest

end Text

/-- Take a string as a text. -/
abbrev text (s : String) : Text := Text.ofString s

end Showrunner

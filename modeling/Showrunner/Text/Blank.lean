import Showrunner.Text.Basic

/-!
# Blanks

What counts as a blank depends on the reader. Formats of the interchange kind know four ASCII
blanks. Numerals given as text are trimmed of Unicode white space. Authored lines are trimmed of
Unicode white space and of the four ASCII separators U+001C to U+001F as well.
-/

namespace Showrunner

namespace Blank

/-- Recognise the white space of the Unicode character database. -/
def isWhite (c : Char) : Bool :=
  let n := c.toNat
  (0x9 ≤ n && n ≤ 0xD) || n == 0x20 || n == 0x85 || n == 0xA0 || n == 0x1680 ||
    (0x2000 ≤ n && n ≤ 0x200A) || n == 0x2028 || n == 0x2029 || n == 0x202F || n == 0x205F ||
    n == 0x3000

/-- Recognise white space and the four ASCII separators. -/
def isBlank (c : Char) : Bool := isWhite c || (0x1C ≤ c.toNat && c.toNat ≤ 0x1F)

/-- Drop from both ends what satisfies a test. -/
def trimBy {α : Type} (p : α → Bool) (cs : List α) : List α :=
  ((cs.dropWhile p).reverse.dropWhile p).reverse

/-- Nothing is trimmed where neither end satisfies the test. -/
theorem trimBy_eq_self {α : Type} {p : α → Bool} {l : List α} (hfirst : ∀ a ∈ l.head?, p a = false)
    (hlast : ∀ a ∈ l.getLast?, p a = false) : trimBy p l = l := by
  have hnone : ∀ l' : List α, (∀ a ∈ l'.head?, p a = false) → l'.dropWhile p = l' := by
    intro l' h
    cases l' with
    | nil => rfl
    | cons a rest => exact List.dropWhile_cons_of_neg (Bool.eq_false_iff.mp (h a rfl))
  rw [trimBy, hnone l hfirst, hnone l.reverse (List.head?_reverse ▸ hlast), List.reverse_reverse]

/-- Trim blanks from both ends of a line. -/
def trim (cs : List Char) : List Char := trimBy isBlank cs

/-- Trim Unicode white space from both ends. -/
def trimWhite (cs : List Char) : List Char := trimBy isWhite cs

/-- Split a line into the runs between blanks. -/
def words (cs : List Char) : List (List Char) :=
  let close (word : List Char) (done : List (List Char)) :=
    if word.isEmpty then done else word.reverse :: done
  let (word, done) := cs.foldl
    (fun (word, done) c => if isBlank c then ([], close word done) else (c :: word, done)) ([], [])
  (close word done).reverse

end Blank

/-- Recognise a blank code point. -/
def CodePoint.isBlank : CodePoint → Bool
  | .scalar c => Blank.isBlank c
  | .surrogate _ => false

/-- Trim blanks from both ends of a text. -/
def Text.trim (t : Text) : Text := Blank.trimBy CodePoint.isBlank t

/-- A text is blank when nothing is left of it after trimming. -/
def Text.isBlank (t : Text) : Bool := t.all CodePoint.isBlank

end Showrunner

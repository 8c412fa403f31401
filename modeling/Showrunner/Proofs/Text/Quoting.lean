import Mathlib.Algebra.GroupWithZero.Nat
import Mathlib.Tactic.SplitIfs
import Showrunner.Proofs.Text.Order
import Showrunner.Text.Digits
import Showrunner.Text.Quoted

/-!
# Quoted names are told apart

What stands between quotes can be read back: a backslash opens an escape that says which code point it
stands for, anything else stands for itself, and the closing quote is never the beginning of an escape. So
different names are quoted differently, and a quoted name shows where it ends, whatever follows it.
-/

namespace Showrunner

namespace Quoted

variable {quote : Char} {s t rest rest' : Text}

/-- The number that hexadecimal digits spell. -/
def unhex (digits : Text) : Nat :=
  digits.foldl (fun n p => n * 16 + (Digits.hex? p.toChar).getD 0) 0

/-- Read the number of the code point with which a text begins that stands between quotes. -/
def unescape? : Text → Option (Nat × Text)
  | .scalar '\\' :: .scalar 't' :: rest => some ('\t'.toNat, rest)
  | .scalar '\\' :: .scalar 'n' :: rest => some ('\n'.toNat, rest)
  | .scalar '\\' :: .scalar 'r' :: rest => some ('\r'.toNat, rest)
  | .scalar '\\' :: .scalar 'x' :: rest => some (unhex (rest.take 2), rest.drop 2)
  | .scalar '\\' :: .scalar 'u' :: rest => some (unhex (rest.take 4), rest.drop 4)
  | .scalar '\\' :: .scalar 'U' :: rest => some (unhex (rest.take 8), rest.drop 8)
  | .scalar '\\' :: p :: rest => some (p.value, rest)
  | p :: rest => some (p.value, rest)
  | [] => none

/-- As many digits are written as are asked for. -/
theorem length_hex (width n : Nat) : (hex width n).length = width := by
  induction width generalizing n with
  | zero => rfl
  | succ width ih => rw [hex, List.length_append, ih, List.length_singleton]

/-- The digits that are written spell the number, up to their width. -/
theorem unhex_hex (width n : Nat) : unhex (Text.ofChars (hex width n)) = n % 16 ^ width := by
  have hdigit : ∀ d < 16, Digits.hex? (hexDigit d) = some d := by decide
  induction width generalizing n with
  | zero => rw [Nat.pow_zero, Nat.mod_one]; rfl
  | succ width ih =>
    have hlast : unhex (Text.ofChars (hex (width + 1) n)) =
        unhex (Text.ofChars (hex width (n / 16))) * 16 + n % 16 := by
      simp [unhex, hex, Text.ofChars, CodePoint.toChar, hdigit (n % 16) (Nat.mod_lt n (by decide))]
    rw [hlast, ih, Nat.pow_succ, Nat.mul_comm (16 ^ width) 16, Nat.mod_mul]
    omega

/-- The number of an escape is read back. -/
theorem unhex_take_hex (width : Nat) {n : Nat} (h : n < 16 ^ width) (rest : Text) :
    (unhex ((Text.ofChars (hex width n) ++ rest).take width),
      (Text.ofChars (hex width n) ++ rest).drop width) = (n, rest) := by
  have hlength : (Text.ofChars (hex width n)).length = width := by
    rw [Text.ofChars, List.length_map, length_hex]
  rw [List.take_left' hlength, List.drop_left' hlength, unhex_hex, Nat.mod_eq_of_lt h]

/-- What a code point is written as between quotes is read back. -/
theorem unescape?_escape (hquote : quote = '\'' ∨ quote = '"') (p : CodePoint) (rest : Text) :
    unescape? (escape quote p ++ rest) = some (p.value, rest) := by
  unfold escape
  split_ifs with hmarked htab hline hreturn hplain hshort hbasic
  · rcases hmarked with rfl | rfl
    · rcases hquote with rfl | rfl <;> rfl
    · rfl
  · rw [htab]; rfl
  · rw [hline]; rfl
  · rw [hreturn]; rfl
  · have hslash : p ≠ .scalar '\\' := fun h => hmarked (.inr h)
    change unescape? (p :: rest) = _
    rw [unescape?]
    all_goals
      intros
      contradiction
  · exact congrArg some (unhex_take_hex 2 hshort rest)
  · exact congrArg some (unhex_take_hex 4 hbasic rest)
  · exact congrArg some (unhex_take_hex 8 (Nat.lt_trans p.value_lt (by decide)) rest)

/-- No escape begins with the closing quote. -/
theorem escape_append_ne (hquote : quote = '\'' ∨ quote = '"') (p : CodePoint) (rest rest' : Text) :
    escape quote p ++ rest ≠ .scalar quote :: rest' := by
  intro h
  have hplain : unescape? (.scalar quote :: rest') = some ((CodePoint.scalar quote).value, rest') := by
    rcases hquote with rfl | rfl <;> rfl
  have hread := congrArg unescape? h
  rw [unescape?_escape hquote, hplain] at hread
  obtain rfl := CodePoint.value_injective (Prod.mk.inj (Option.some.inj hread)).1
  -- the quote itself is escaped, with a backslash in front
  rw [escape, if_pos (.inl rfl)] at h
  have hslash : CodePoint.scalar '\\' = .scalar quote := (List.cons.inj h).1
  rcases hquote with rfl | rfl <;> cases hslash

/-- What is written between the same quotes was the same, and so is what follows the closing quote. -/
theorem flatMap_escape_inj (hquote : quote = '\'' ∨ quote = '"')
    (h : s.flatMap (escape quote) ++ .scalar quote :: rest =
      t.flatMap (escape quote) ++ .scalar quote :: rest') : s = t ∧ rest = rest' := by
  induction s generalizing t with
  | nil =>
    cases t with
    | nil => exact ⟨rfl, (List.cons.inj h).2⟩
    | cons q t =>
      rw [List.flatMap_cons, List.append_assoc] at h
      exact absurd h.symm (escape_append_ne hquote q _ _)
  | cons p s ih =>
    cases t with
    | nil =>
      rw [List.flatMap_cons, List.append_assoc] at h
      exact absurd h (escape_append_ne hquote p _ _)
    | cons q t =>
      simp only [List.flatMap_cons, List.append_assoc] at h
      have hread := congrArg unescape? h
      rw [unescape?_escape hquote, unescape?_escape hquote] at hread
      obtain ⟨hvalue, hmore⟩ := Prod.mk.inj (Option.some.inj hread)
      obtain ⟨rfl, hrest⟩ := ih hmore
      exact ⟨by rw [CodePoint.value_injective hvalue], hrest⟩

/-- The quotes are single or double. -/
theorem quoteFor_eq (t : Text) : quoteFor t = '\'' ∨ quoteFor t = '"' := by
  unfold quoteFor
  split
  · exact .inr rfl
  · exact .inl rfl

end Quoted

/-- Names that are quoted alike, whatever follows them, are the same, and the same follows them. -/
theorem Text.quoted_append_inj {s t rest rest' : Text} (h : s.quoted ++ rest = t.quoted ++ rest') :
    s = t ∧ rest = rest' := by
  simp only [quoted, List.cons_append, List.append_assoc, List.nil_append] at h
  obtain ⟨hquote, hrest⟩ := List.cons.inj h
  rw [CodePoint.scalar.inj hquote] at hrest
  exact Quoted.flatMap_escape_inj (Quoted.quoteFor_eq t) hrest

end Showrunner

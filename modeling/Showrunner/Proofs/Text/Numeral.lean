import Mathlib.Data.List.Basic
import Mathlib.Data.List.Induction
import Mathlib.Tactic.Ring
import Showrunner.Text.Digits

/-!
# Numerals in decimal

A natural number is written with ASCII digits, without a zero in front unless it is zero, and the
digits spell the number.
-/

namespace Showrunner

namespace Digits

variable {n d : Nat} {cs ds : List Char}

/-- The character of a digit has the value of the digit. -/
theorem ascii?_digitChar (h : d < 10) : ascii? d.digitChar = some d := by
  have hrange : '0'.toNat ≤ 48 + d ∧ 48 + d ≤ '9'.toNat := by
    change 48 ≤ 48 + d ∧ 48 + d ≤ 57
    omega
  rw [ascii?, Nat.toNat_digitChar_of_lt_ten h, if_pos hrange]
  exact congrArg some (Nat.add_sub_cancel_left 48 d)

/-- What digits spell with one more behind them. -/
theorem value_concat (base : Nat) (xs : List Nat) (x : Nat) :
    value base (xs ++ [x]) = value base xs * base + x := by
  rw [value, List.foldl_append]
  rfl

/-- What digits spell with more of them behind. -/
theorem value_append (base : Nat) (xs ys : List Nat) :
    value base (xs ++ ys) = value base xs * base ^ ys.length + value base ys := by
  induction ys using List.reverseRecOn with
  | nil => simp [value]
  | append_singleton ys y ih =>
    rw [← List.append_assoc, value_concat, value_concat, ih, List.length_append,
      List.length_singleton, Nat.pow_succ, Nat.add_mul, Nat.mul_assoc, Nat.add_assoc]

/-- What characters spell with more of them behind. -/
theorem natOf_append (cs ds : List Char) :
    natOf (cs ++ ds) = natOf cs * 10 ^ ds.length + natOf ds := by
  rw [natOf, List.map_append, value_append, List.length_map]
  rfl

/-- Zeros in front count for nothing. -/
theorem natOf_zeros (count : Nat) : natOf (List.replicate count '0') = 0 := by
  induction count with
  | zero => rfl
  | succ count ih => rw [List.replicate_succ', natOf_append, ih]; rfl

/-- What digits spell is below the power of ten of their number. -/
theorem natOf_lt (cs : List Char) : natOf cs < 10 ^ cs.length := by
  induction cs using List.reverseRecOn with
  | nil => decide
  | append_singleton cs c ih =>
    have hc : natOf [c] < 10 := by
      rw [natOf, List.map_singleton, value, List.foldl_cons, List.foldl_nil, Nat.zero_mul,
        Nat.zero_add, ascii?]
      split
      · next hrange =>
        have h9 : c.toNat ≤ 57 := hrange.2
        change c.toNat - 48 < 10
        omega
      · decide
    rw [natOf_append, List.length_append, List.length_singleton, Nat.pow_succ]
    omega

/-- The written digits of a number spell it. -/
theorem natOf_toDigits (n : Nat) : natOf (Nat.toDigits 10 n) = n := by
  have hdigit : ∀ {d}, d < 10 → natOf [d.digitChar] = d := fun {d} h => by
    rw [natOf, List.map_singleton, ascii?_digitChar h]
    exact (Nat.zero_add d)
  induction n using Nat.strongRecOn with
  | ind n ih =>
    by_cases hn : n < 10
    · rw [Nat.toDigits_of_lt_base hn, hdigit hn]
    · rw [Nat.toDigits_of_base_le (by decide) (Nat.le_of_not_lt hn), natOf_append,
        ih (n / 10) (by omega), hdigit (Nat.mod_lt n (by decide))]
      exact Nat.div_add_mod' n 10

/-- A number is written with digits. -/
theorem isAscii_of_mem_toDigits {c : Char} (h : c ∈ Nat.toDigits 10 n) : isAscii c = true := by
  induction n using Nat.strongRecOn with
  | ind n ih =>
    have hdigit : ∀ {d}, d < 10 → isAscii d.digitChar = true := fun hd => by
      rw [isAscii, ascii?_digitChar hd]
      rfl
    by_cases hn : n < 10
    · rw [Nat.toDigits_of_lt_base hn, List.mem_singleton] at h
      exact h ▸ hdigit hn
    · rw [Nat.toDigits_of_base_le (by decide) (Nat.le_of_not_lt hn), List.mem_append,
        List.mem_singleton] at h
      rcases h with h | rfl
      · exact ih (n / 10) (by omega) h
      · exact hdigit (Nat.mod_lt n (by decide))

/-- A number is written without a zero in front, unless it is zero. -/
theorem exists_toDigits_eq_cons (n : Nat) :
    ∃ c rest, Nat.toDigits 10 n = c :: rest ∧ (c = '0' → rest = []) := by
  induction n using Nat.strongRecOn with
  | ind n ih =>
    by_cases hn : n < 10
    · exact ⟨_, [], Nat.toDigits_of_lt_base hn, fun _ => rfl⟩
    · obtain ⟨c, rest, hdigits, hc⟩ := ih (n / 10) (by omega)
      have hne : c ≠ '0' := by
        rintro rfl
        have hzero := Digits.natOf_toDigits (n / 10)
        rw [hdigits, hc rfl] at hzero
        have hnone : natOf ['0'] = 0 := rfl
        omega
      rw [Nat.toDigits_of_base_le (by decide) (Nat.le_of_not_lt hn), hdigits]
      exact ⟨c, _, rfl, fun hzero => absurd hzero hne⟩

end Digits

namespace Text

/-- A number is written with its digits. -/
theorem ofNat_eq (n : Nat) : ofNat n = ofChars (Nat.toDigits 10 n) := by
  rw [ofNat, ofString, Nat.toList_repr]

/-- The characters of a text of characters are those of which it is made. -/
theorem toChars_ofChars (cs : List Char) : (ofChars cs).toChars = cs := by
  rw [toChars, ofChars, List.map_map]
  exact List.map_id _

/-- Characters of two texts in turn are those of both. -/
theorem ofChars_append (cs ds : List Char) : ofChars (cs ++ ds) = ofChars cs ++ ofChars ds := List.map_append

/-- Characters are told apart in a text of characters. -/
theorem ofChars_injective : Function.Injective ofChars :=
  List.map_injective_iff.mpr fun _ _ h => CodePoint.scalar.inj h

/-- Different numbers are written differently. -/
theorem ofNat_injective : Function.Injective ofNat := by
  intro m n h
  rw [ofNat_eq, ofNat_eq] at h
  rw [← Digits.natOf_toDigits m, ofChars_injective h, Digits.natOf_toDigits]

/-- No number is written with a minus in front. -/
theorem ofNat_ne_minus (n : Nat) (t : Text) : ofNat n ≠ .scalar '-' :: t := by
  intro h
  obtain ⟨c, rest, hdigits, -⟩ := Digits.exists_toDigits_eq_cons n
  rw [ofNat_eq, hdigits, ofChars, List.map_cons] at h
  have hc : Digits.isAscii c = true := Digits.isAscii_of_mem_toDigits (hdigits ▸ List.mem_cons_self)
  rw [CodePoint.scalar.inj (List.cons.inj h).1] at hc
  exact absurd hc (by decide)

/-- Different integers are written differently. -/
theorem ofInt_injective : Function.Injective ofInt := by
  intro i j h
  cases i with
  | ofNat m =>
    cases j with
    | ofNat n => exact congrArg Int.ofNat (ofNat_injective h)
    | negSucc n => exact absurd h (ofNat_ne_minus m _)
  | negSucc m =>
    cases j with
    | ofNat n => exact absurd h.symm (ofNat_ne_minus n _)
    | negSucc n => exact congrArg Int.negSucc (Nat.succ.inj (ofNat_injective (List.cons.inj h).2))

end Text

end Showrunner

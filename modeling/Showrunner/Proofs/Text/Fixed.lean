import Showrunner.Proofs.Text.Numeral
import Showrunner.Proofs.Text.Order

/-!
# Numerals of a fixed width

A number that is written with zeros in front, up to a width that its digits do not exceed, takes exactly that
width. Numerals of one width are in the order of their numbers, so texts that are made of such numerals at
fixed places are in the order of their first numbers, then of their second ones, and so on.
-/

namespace Showrunner

namespace Digits

variable {width m n : Nat} {c : Char}

/-- The last digits of a number, as many as the width. -/
def fixed : (width : Nat) → Nat → List Char
  | 0, _ => []
  | width + 1, n => fixed width (n / 10) ++ [(n % 10).digitChar]

/-- As many digits are written as the width says. -/
@[simp] theorem length_fixed (width n : Nat) : (fixed width n).length = width := by
  induction width generalizing n with
  | zero => rfl
  | succ width ih => rw [fixed, List.length_append, ih, List.length_singleton]

/-- Nothing but digits is written. -/
theorem isAscii_of_mem_fixed (h : c ∈ fixed width n) : isAscii c = true := by
  induction width generalizing n with
  | zero => exact absurd h List.not_mem_nil
  | succ width ih =>
    rcases List.mem_append.mp h with hfront | hlast
    · exact ih hfront
    · rw [List.mem_singleton.mp hlast, isAscii, ascii?_digitChar (Nat.mod_lt n (by decide))]
      rfl

/-- The digits of a number that they suffice for spell the number. -/
theorem natOf_fixed (h : n < 10 ^ width) : natOf (fixed width n) = n := by
  induction width generalizing n with
  | zero =>
    rw [Nat.pow_zero, Nat.lt_one_iff] at h
    rw [h]
    rfl
  | succ width ih =>
    have hdigit : natOf [(n % 10).digitChar] = n % 10 := by
      rw [← Nat.toDigits_of_lt_base (Nat.mod_lt n (by decide)), natOf_toDigits]
    rw [fixed, natOf_append, ih (by omega), hdigit]
    exact Nat.div_add_mod' n 10

/-- Of zero only zeros are written. -/
theorem fixed_zero (width : Nat) : fixed width 0 = List.replicate width '0' := by
  induction width with
  | zero => rfl
  | succ width ih =>
    rw [fixed, ih, List.replicate_succ']
    rfl

/-- Zeros in front of a number fill its digits up to the width. -/
theorem replicate_append_toDigits (hwidth : 0 < width) (h : n < 10 ^ width) :
    List.replicate (width - (Nat.toDigits 10 n).length) '0' ++ Nat.toDigits 10 n = fixed width n := by
  induction width generalizing n with
  | zero => exact absurd hwidth (Nat.lt_irrefl 0)
  | succ width ih =>
    by_cases hn : n < 10
    · rw [Nat.toDigits_of_lt_base hn, fixed, Nat.div_eq_of_lt hn, fixed_zero, Nat.mod_eq_of_lt hn]
      rfl
    · have hfront : 0 < width := by
        by_contra hnone
        rw [Nat.eq_zero_of_not_pos hnone] at h
        exact hn h
      rw [Nat.toDigits_of_base_le (by decide) (Nat.le_of_not_lt hn), fixed, ← ih hfront (by omega),
        List.length_append, List.length_singleton, Nat.add_sub_add_right, List.append_assoc]

end Digits

namespace Text

open Digits

variable {width m n : Nat} {s s' t t' : Text}

/-- A number that is filled up to a width is written with as many digits. -/
theorem padded_eq (hwidth : 0 < width) (h : n < 10 ^ width) : padded width n = ofChars (fixed width n) := by
  rw [← replicate_append_toDigits hwidth h, padded, ofNat_eq, ofChars, List.length_map, ofChars,
    List.map_append, List.map_replicate]

/-- Numbers for which a width suffices are told apart by their digits. -/
theorem ofChars_fixed_inj (hm : m < 10 ^ width) (hn : n < 10 ^ width) :
    ofChars (fixed width m) = ofChars (fixed width n) ↔ m = n := by
  refine ⟨fun h => ?_, fun h => by rw [h]⟩
  rw [← natOf_fixed hm, ofChars_injective h, natOf_fixed hn]

/-- No text comes before itself. -/
theorem before_self (t : Text) : before t t = false := by
  induction t with
  | nil => rfl
  | cons p t ih => rw [before, ih, Bool.and_false, Bool.or_false, decide_eq_false (Nat.lt_irrefl _)]

/-- Texts that open with parts of one length are compared by these, and by the rest where they are the
same. -/
theorem before_append (hlength : s.length = t.length) :
    before (s ++ s') (t ++ t') = true ↔ before s t = true ∨ s = t ∧ before s' t' = true := by
  induction s generalizing t with
  | nil =>
    obtain rfl := List.length_eq_zero_iff.mp hlength.symm
    simp [before]
  | cons p s ih =>
    cases t with
    | nil => cases hlength
    | cons q t =>
      simp only [List.cons_append, before, Bool.or_eq_true, Bool.and_eq_true, decide_eq_true_eq, beq_iff_eq,
        ih (Nat.succ.inj hlength), List.cons.injEq]
      tauto

/-- Texts that open alike are compared by the rest. -/
theorem before_append_self (t : Text) : before (t ++ s') (t ++ t') = true ↔ before s' t' = true := by
  rw [before_append rfl, before_self]
  simp only [Bool.false_eq_true, true_and, false_or]

/-- Digits are in the order of what they are worth. -/
theorem before_digit (hm : m < 10) (hn : n < 10) :
    before (ofChars [m.digitChar]) (ofChars [n.digitChar]) = true ↔ m < n := by
  simp only [ofChars, List.map_cons, List.map_nil, before, Bool.or_eq_true, Bool.and_eq_true, Bool.false_eq_true,
    and_false, or_false, decide_eq_true_eq, CodePoint.value, Nat.toNat_digitChar_of_lt_ten hm,
    Nat.toNat_digitChar_of_lt_ten hn]
  omega

/-- Numerals of one width are in the order of their numbers. -/
theorem before_fixed (hm : m < 10 ^ width) (hn : n < 10 ^ width) :
    before (ofChars (fixed width m)) (ofChars (fixed width n)) = true ↔ m < n := by
  induction width generalizing m n with
  | zero =>
    rw [Nat.pow_zero, Nat.lt_one_iff] at hm hn
    rw [hm, hn]
    exact ⟨fun h => (nomatch h), fun h => absurd h (Nat.lt_irrefl 0)⟩
  | succ width ih =>
    have hfront : m / 10 < 10 ^ width ∧ n / 10 < 10 ^ width := by omega
    rw [fixed, fixed, ofChars_append, ofChars_append, before_append (by simp [ofChars]), ih hfront.1 hfront.2,
      ofChars_fixed_inj hfront.1 hfront.2, before_digit (Nat.mod_lt m (by decide)) (Nat.mod_lt n (by decide))]
    omega

/-- Texts that open with numerals of one width are compared by their numbers, and by the rest where these are
the same. -/
theorem before_padded_append (hwidth : 0 < width) (hm : m < 10 ^ width) (hn : n < 10 ^ width) :
    before (padded width m ++ s) (padded width n ++ t) = true ↔ m < n ∨ m = n ∧ before s t = true := by
  rw [padded_eq hwidth hm, padded_eq hwidth hn, before_append (by simp [ofChars]), before_fixed hm hn,
    ofChars_fixed_inj hm hn]

end Text

end Showrunner

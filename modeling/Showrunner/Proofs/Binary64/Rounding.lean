import Mathlib.Algebra.Order.Field.Power
import Mathlib.Data.Rat.Cast.Order
import Mathlib.Tactic.FieldSimp
import Mathlib.Tactic.Linarith
import Mathlib.Tactic.NormNum
import Mathlib.Tactic.Positivity
import Mathlib.Tactic.Ring
import Showrunner.Binary64.Basic

/-!
# Rounding to binary64

A quotient is rounded in units of a power of two. One power serves: with it the quotient has 53 bits in
front of the point, or it is the least power that there is. The mantissa is the natural number nearest to
the quotient in these units, the even one of two that are equally near. The rationals that round to a
finite number are therefore those of an interval around it, and every decimal in this interval is read as
the number.
-/

namespace Showrunner

namespace Binary64

/-- A number in its one form: a finite one has 53 bits, and fewer at the least exponent only. -/
def IsCanonical : Binary64 → Prop
  | .finite _ mantissa exponent =>
      leastExponent ≤ exponent ∧ exponent ≤ greatestExponent ∧ mantissa < 2 ^ 53 ∧
        (exponent = leastExponent ∨ 2 ^ 52 ≤ mantissa)
  | _ => True

variable {num den : ℕ} {e : ℤ}

/-- A power is the quotient of its two sides, one of which is one. -/
theorem zpow_sides {b : ℚ} (hb : b ≠ 0) (e : ℤ) : b ^ e = b ^ e.toNat / b ^ (-e).toNat := by
  rw [← zpow_natCast, ← zpow_natCast, ← zpow_sub₀ hb]
  congr 1
  omega

/-- A number that is multiplied by a power of two if it is a whole one. -/
theorem cast_shift (n : ℕ) (e : ℤ) : (shift n e : ℚ) = n * 2 ^ e.toNat := by
  rw [shift, Nat.pow_eq]
  push_cast
  rfl

/-- A quotient in units of a power of two. -/
theorem cast_shift_div (num den : ℕ) (e : ℤ) :
    (shift num (-e) : ℚ) / shift den e = num / den / 2 ^ e := by
  rw [cast_shift, cast_shift, zpow_sides two_ne_zero]
  field_simp

/-- The integer part of a quotient in units of a power of two, with what is left of it. -/
theorem quotientAt_spec (hden : 0 < den) (num : ℕ) (e : ℤ) :
    ∃ q r d, quotientAt num den e = (q, r, d) ∧ r < d ∧
      (q : ℚ) + r / d = num / den / 2 ^ e := by
  have hd : 0 < shift den e := Nat.mul_pos hden (Nat.pow_pos two_pos)
  refine ⟨_, _, _, rfl, Nat.mod_lt _ hd, ?_⟩
  have hsplit : ((shift num (-e) : ℕ) : ℚ) = (shift num (-e) / shift den e : ℕ) * shift den e +
      (shift num (-e) % shift den e : ℕ) := by
    exact_mod_cast (Nat.div_add_mod' _ _).symm
  have hd' : (shift den e : ℚ) ≠ 0 := by exact_mod_cast hd.ne'
  rw [← cast_shift_div, hsplit, add_div, mul_div_assoc, div_self hd', mul_one]

/-- A natural number is at most the integer part of a quotient in units of a power of two exactly if
so many units are at most the quotient. -/
theorem le_quotientAt_iff (hden : 0 < den) (num : ℕ) (e : ℤ) (k : ℕ) :
    k ≤ (quotientAt num den e).1 ↔ (k : ℚ) * 2 ^ e ≤ num / den := by
  obtain ⟨q, r, d, hq, hr, hsum⟩ := quotientAt_spec hden num e
  have hd : (0 : ℚ) < d := by exact_mod_cast Nat.zero_lt_of_lt hr
  have hrest : (r : ℚ) / d < 1 := (div_lt_one hd).mpr (by exact_mod_cast hr)
  have hnonneg : (0 : ℚ) ≤ r / d := by positivity
  rw [hq, ← le_div_iff₀ (by positivity), ← hsum]
  constructor
  · intro hk
    have hcast : (k : ℚ) ≤ q := by exact_mod_cast hk
    linarith
  · intro hk
    have hlt : (k : ℚ) < (q + 1 : ℕ) := by
      push_cast
      linarith
    exact Nat.le_of_lt_succ (by exact_mod_cast hlt)

/-- A positive number lies between the powers of two of its binary logarithm and of the next. -/
theorem log2_bounds {n : ℕ} (h : 0 < n) :
    (2 : ℚ) ^ (n.log2 : ℤ) ≤ n ∧ (n : ℚ) < 2 ^ ((n.log2 : ℤ) + 1) := by
  constructor
  · rw [zpow_natCast]
    exact_mod_cast Nat.log2_self_le h.ne'
  · have hlt : n < 2 ^ (n.log2 + 1) := Nat.lt_log2_self
    exact_mod_cast hlt

/-- A quotient lies between the powers of two around the difference of the logarithms. -/
theorem quotient_bounds (hnum : 0 < num) (hden : 0 < den) :
    (2 : ℚ) ^ ((num.log2 : ℤ) - den.log2 - 1) < num / den ∧
      (num : ℚ) / den < 2 ^ ((num.log2 : ℤ) - den.log2 + 1) := by
  obtain ⟨hnlow, hnhigh⟩ := log2_bounds hnum
  obtain ⟨hdlow, hdhigh⟩ := log2_bounds hden
  have hd : (0 : ℚ) < den := by exact_mod_cast hden
  constructor
  · rw [lt_div_iff₀ hd]
    calc (2 : ℚ) ^ ((num.log2 : ℤ) - den.log2 - 1) * den
        < 2 ^ ((num.log2 : ℤ) - den.log2 - 1) * 2 ^ ((den.log2 : ℤ) + 1) :=
          mul_lt_mul_of_pos_left hdhigh (by positivity)
      _ = 2 ^ (num.log2 : ℤ) := by rw [← zpow_add₀ two_ne_zero]; congr 1; ring
      _ ≤ num := hnlow
  · rw [div_lt_iff₀ hd]
    calc (num : ℚ) < 2 ^ ((num.log2 : ℤ) + 1) := hnhigh
      _ = 2 ^ ((num.log2 : ℤ) - den.log2 + 1) * 2 ^ (den.log2 : ℤ) := by
          rw [← zpow_add₀ two_ne_zero]; congr 1; ring
      _ ≤ 2 ^ ((num.log2 : ℤ) - den.log2 + 1) * den :=
          mul_le_mul_of_nonneg_left hdlow (by positivity)

/-- The integer part of a quotient in units of a power of two has some bits exactly if the quotient
reaches a power of two. -/
theorem pow_le_quotientAt_iff (hden : 0 < den) (num : ℕ) (e : ℤ) (k : ℕ) :
    Nat.pow 2 k ≤ (quotientAt num den e).1 ↔ (2 : ℚ) ^ (e + k) ≤ num / den := by
  rw [le_quotientAt_iff hden, Nat.pow_eq, Nat.cast_pow, Nat.cast_ofNat, zpow_add₀ two_ne_zero,
    zpow_natCast, mul_comm]

/-- An exponent at which the integer part of a quotient has 53 bits, or the least exponent. -/
structure Scales (v : ℚ) (e : ℤ) : Prop where
  least : leastExponent ≤ e
  high : v < 2 ^ (e + 53)
  low : e = leastExponent ∨ 2 ^ (e + 52) ≤ v

/-- There is one such exponent. -/
theorem Scales.unique {v : ℚ} {e e' : ℤ} (h : Scales v e) (h' : Scales v e') : e = e' := by
  have hle : ∀ {e e' : ℤ}, Scales v e → Scales v e' → e ≤ e' := by
    intro e e' h h'
    rcases h.low with hleast | hlow
    · exact hleast ▸ h'.least
    · have hlt := (zpow_lt_zpow_iff_right₀ one_lt_two).mp (hlow.trans_lt h'.high)
      omega
  exact le_antisymm (hle h h') (hle h' h)

/-- The exponent at which a quotient is rounded. -/
theorem scales_exponentFor (hnum : 0 < num) (hden : 0 < den) :
    Scales (num / den) (exponentFor num den) := by
  obtain ⟨hlow, hhigh⟩ := quotient_bounds hnum hden
  have hpow : ∀ {a b : ℤ}, a ≤ b → (2 : ℚ) ^ a ≤ 2 ^ b := fun h =>
    zpow_le_zpow_right₀ one_le_two h
  unfold exponentFor
  generalize hguess : max leastExponent ((num.log2 : ℤ) - den.log2 - 52) = guess
  have hmax : leastExponent ≤ guess ∧ (num.log2 : ℤ) - den.log2 - 52 ≤ guess ∧
      (guess = leastExponent ∨ guess = (num.log2 : ℤ) - den.log2 - 52) := by omega
  have htop : (num : ℚ) / den < 2 ^ (guess + 53) := hhigh.trans_le (hpow (by omega))
  dsimp only
  split
  · next hlarge => exact absurd htop (not_lt.mpr ((pow_le_quotientAt_iff hden _ _ _).mp hlarge))
  · split
    · next hsmall =>
      obtain ⟨hsmall, hleast⟩ := hsmall
      rw [← not_le, pow_le_quotientAt_iff hden, not_le] at hsmall
      refine ⟨by omega, hsmall.trans_le (hpow (by omega)), .inr (le_trans (hpow (by omega)) hlow.le)⟩
    · next hfits =>
      refine ⟨hmax.1, htop, ?_⟩
      rw [not_and_or, not_lt, pow_le_quotientAt_iff hden] at hfits
      exact hfits.symm.imp (fun h => by omega) id

/-! ## Mantissas -/

/-- A natural number is nearest to a rational: none is nearer, and one that is odd is the only one. -/
structure Nearest (w : ℚ) (m : ℕ) : Prop where
  low : (m : ℚ) - 1 / 2 ≤ w
  high : w ≤ m + 1 / 2
  odd : m % 2 = 1 → (m : ℚ) - 1 / 2 < w ∧ w < m + 1 / 2

/-- There is one such number, ties going to the even one. -/
theorem Nearest.unique {w : ℚ} {m m' : ℕ} (h : Nearest w m) (h' : Nearest w m') : m = m' := by
  have hle : ∀ {m m' : ℕ}, Nearest w m → Nearest w m' → m' ≤ m := by
    intro m m' h h'
    by_contra hlt
    have hstep : (m : ℚ) + 1 ≤ m' := by exact_mod_cast Nat.lt_of_not_le hlt
    have hlow := h'.low
    have hhigh := h.high
    have hnext : m' = m + 1 := by
      have : (m' : ℚ) = (m + 1 : ℕ) := by
        push_cast
        linarith
      exact_mod_cast this
    -- the two are neighbours with the rational halfway between them, and one of them is odd
    rcases Nat.mod_two_eq_zero_or_one m with heven | hodd
    · have := (h'.odd (by omega)).1
      linarith
    · have := (h.odd hodd).2
      linarith
  exact le_antisymm (hle h' h) (hle h h')

/-- An integer part is nearest if what is left is less than a half, or a half beyond an even number. -/
theorem nearest_down {q : ℕ} {f : ℚ} (hnonneg : 0 ≤ f) (hhalf : f < 1 / 2 ∨ f = 1 / 2 ∧ q % 2 = 0) :
    Nearest (q + f) q := by
  rcases hhalf with hlt | ⟨rfl, heven⟩
  · exact ⟨by linarith, by linarith, fun _ => ⟨by linarith, by linarith⟩⟩
  · exact ⟨by linarith, le_refl _, fun hodd => by omega⟩

/-- The next number is nearest if what is left is more than a half, or a half beyond an odd number. -/
theorem nearest_up {q : ℕ} {f : ℚ} (hone : f < 1) (hhalf : 1 / 2 < f ∨ f = 1 / 2 ∧ q % 2 = 1) :
    Nearest (q + f) (q + 1) := by
  have hcast : ((q + 1 : ℕ) : ℚ) = q + 1 := Nat.cast_succ q
  rcases hhalf with hgt | ⟨rfl, hodd⟩
  · exact ⟨by linarith, by linarith, fun _ => ⟨by linarith, by linarith⟩⟩
  · exact ⟨by linarith, by linarith, fun hodd' => by omega⟩

/-- An integer part is rounded by what is left of its divisor. -/
theorem nearest_of_rest {q r d : ℕ} (hr : r < d) :
    Nearest (q + r / d) (if d < 2 * r || (2 * r == d && q % 2 == 1) then q + 1 else q) := by
  have hd : (0 : ℚ) < d := by exact_mod_cast Nat.zero_lt_of_lt hr
  have hone : (r : ℚ) / d < 1 := (div_lt_one hd).mpr (by exact_mod_cast hr)
  have hcompare : ((r : ℚ) / d < 1 / 2 ↔ 2 * r < d) ∧ ((r : ℚ) / d = 1 / 2 ↔ 2 * r = d) ∧
      (1 / 2 < (r : ℚ) / d ↔ d < 2 * r) := by
    rw [div_lt_div_iff₀ hd two_pos, div_eq_div_iff hd.ne' two_ne_zero, div_lt_div_iff₀ two_pos hd,
      one_mul, mul_comm (r : ℚ)]
    exact ⟨by exact_mod_cast Iff.rfl, by exact_mod_cast Iff.rfl, by exact_mod_cast Iff.rfl⟩
  obtain ⟨hlt, heq, hgt⟩ := hcompare
  split
  · next hup =>
    rw [Bool.or_eq_true, decide_eq_true_eq, Bool.and_eq_true, beq_iff_eq, beq_iff_eq] at hup
    exact nearest_up hone (hup.imp hgt.mpr fun h => ⟨heq.mpr h.1, h.2⟩)
  · next hdown =>
    rw [Bool.or_eq_true, decide_eq_true_eq, Bool.and_eq_true, beq_iff_eq, beq_iff_eq] at hdown
    refine nearest_down (by positivity) ?_
    rcases lt_or_eq_of_le (Nat.le_of_not_lt fun h => hdown (.inl h)) with h | h
    · exact .inl (hlt.mpr h)
    · exact .inr ⟨heq.mpr h, by omega⟩

/-- A quotient is rounded to the nearest mantissa at its exponent; a mantissa of one bit too many goes
with the next exponent, and an exponent that is too great with an infinity. -/
theorem nearest_spec (negative : Bool) (hnum : 0 < num) (hden : 0 < den) :
    ∃ e m, Scales (num / den) e ∧ Nearest (num / den / 2 ^ e) m ∧
      nearest negative num den =
        if m = 2 ^ 53 then
          if greatestExponent < e + 1 then .infinity negative else .finite negative (2 ^ 52) (e + 1)
        else if greatestExponent < e then .infinity negative else .finite negative m e := by
  obtain ⟨q, r, d, hq, hr, hsum⟩ := quotientAt_spec hden num (exponentFor num den)
  refine ⟨exponentFor num den, _, scales_exponentFor hnum hden, hsum ▸ nearest_of_rest hr, ?_⟩
  unfold nearest
  simp only [hq]
  generalize (if (decide (d < 2 * r) || 2 * r == d && q % 2 == 1) = true then q + 1 else q) = m
  by_cases hm : m = 2 ^ 53
  · have hcarry : m = Nat.pow 2 53 := hm
    rw [if_pos hm, if_pos hcarry]
    rfl
  · have hkept : ¬m = Nat.pow 2 53 := hm
    rw [if_neg hm, if_neg hkept]

/-- At its exponent a quotient is below 2^53 units, and at least 2^52 above the least exponent. -/
theorem scales_iff {v : ℚ} {e : ℤ} :
    Scales v e ↔ leastExponent ≤ e ∧ v / 2 ^ e < 2 ^ 53 ∧
      (e = leastExponent ∨ 2 ^ 52 ≤ v / 2 ^ e) := by
  have hpos : (0 : ℚ) < 2 ^ e := by positivity
  have hunit : ∀ k : ℕ, (2 : ℚ) ^ (e + k) = 2 ^ k * 2 ^ e := fun k => by
    rw [zpow_add₀ two_ne_zero, zpow_natCast, mul_comm]
  rw [div_lt_iff₀ hpos, le_div_iff₀ hpos, ← hunit 53, ← hunit 52]
  exact ⟨fun h => ⟨h.least, h.high, h.low⟩, fun h => ⟨h.1, h.2.1, h.2.2⟩⟩

/-- Rounding gives a number in its one form. -/
theorem isCanonical_nearest (negative : Bool) (hnum : 0 < num) (hden : 0 < den) :
    (nearest negative num den).IsCanonical := by
  obtain ⟨e, m, hscales, hnearest, hrounds⟩ := nearest_spec negative hnum hden
  obtain ⟨hleast, hhigh, hlow⟩ := scales_iff.mp hscales
  rw [hrounds]
  split
  · split
    · trivial
    · exact ⟨by omega, by omega, by norm_num, .inr le_rfl⟩
  · next hcarry =>
    split
    · trivial
    · have hmost : m < 2 ^ 53 + 1 := by
        have : (m : ℚ) < (2 ^ 53 + 1 : ℕ) := by
          push_cast
          linarith [hnearest.low]
        exact_mod_cast this
      refine ⟨hleast, by omega, by omega, hlow.imp id fun h => ?_⟩
      have : ((2 ^ 52 : ℕ) : ℚ) < (m + 1 : ℕ) := by
        push_cast
        linarith [hnearest.high]
      exact Nat.le_of_lt_succ (by exact_mod_cast this)

/-- How far below a number the rationals reach that round to it, in units of its last place: halfway to
the number below, which is nearer where the exponent changes. -/
def reachBelow (m : ℕ) (e : ℤ) : ℚ := if m = 2 ^ 52 ∧ leastExponent < e then 1 / 4 else 1 / 2

/-- The rationals that round to a finite number: those from halfway to the number below up to halfway
to the number above, with both ends exactly if the mantissa is even. -/
structure RoundsTo (v : ℚ) (m : ℕ) (e : ℤ) : Prop where
  low : m - reachBelow m e ≤ v / 2 ^ e
  high : v / 2 ^ e ≤ m + 1 / 2
  odd : m % 2 = 1 → m - reachBelow m e < v / 2 ^ e ∧ v / 2 ^ e < m + 1 / 2

/-- A quotient that rounds to a finite number is rounded to it. -/
theorem nearest_of_roundsTo (negative : Bool) (hnum : 0 < num) (hden : 0 < den) {m : ℕ} {e : ℤ}
    (hx : (finite negative m e).IsCanonical) (h : RoundsTo (num / den) m e) :
    nearest negative num den = finite negative m e := by
  obtain ⟨hleast, hgreatest, hmost, hbits⟩ := hx
  obtain ⟨e', m', hscales, hnearest, hrounds⟩ := nearest_spec negative hnum hden
  generalize hv : (num : ℚ) / den = v at *
  have hm : (m : ℚ) + 1 ≤ 2 ^ 53 := by exact_mod_cast hmost
  have hreach : reachBelow m e ≤ 1 / 2 := by
    unfold reachBelow
    split <;> norm_num
  by_cases hlow : e = leastExponent ∨ 2 ^ 52 ≤ v / 2 ^ e
  · -- the quotient has the exponent of the number
    have he : e' = e := hscales.unique (scales_iff.mpr ⟨hleast, by linarith [h.high], hlow⟩)
    subst he
    have hm' : m' = m := hnearest.unique ⟨by linarith [h.low], h.high, fun hodd =>
      ⟨by linarith [(h.odd hodd).1], (h.odd hodd).2⟩⟩
    rw [hrounds, hm', if_neg hmost.ne, if_neg (not_lt.mpr hgreatest)]
  · -- the quotient lies just below the least number of its exponent
    rw [not_or, not_le] at hlow
    obtain ⟨habove, hbelow⟩ := hlow
    have hleastm : (2 : ℚ) ^ 52 ≤ m := by exact_mod_cast hbits.resolve_left habove
    have hmin : m = 2 ^ 52 := by
      have : (m : ℚ) < (2 ^ 52 + 1 : ℕ) := by
        push_cast
        linarith [h.low]
      have : m < 2 ^ 52 + 1 := by exact_mod_cast this
      have : 2 ^ 52 ≤ m := by exact_mod_cast hleastm
      omega
    have hhalf : v / 2 ^ (e - 1) = 2 * (v / 2 ^ e) := by
      rw [zpow_sub_one₀ two_ne_zero]
      field_simp
    have hquarter : reachBelow m e = 1 / 4 := if_pos ⟨hmin, by omega⟩
    have hlowest := h.low
    rw [hquarter, hmin] at hlowest
    push_cast at hlowest
    have he : e' = e - 1 := hscales.unique (scales_iff.mpr
      ⟨by omega, by rw [hhalf]; linarith, .inr (by rw [hhalf]; linarith)⟩)
    subst he
    have hm' : m' = 2 ^ 53 := hnearest.unique ⟨by rw [hhalf]; push_cast; linarith,
      by rw [hhalf]; push_cast; linarith, fun hodd => absurd hodd (by norm_num)⟩
    rw [hrounds, if_pos hm', hmin, sub_add_cancel, if_neg (not_lt.mpr hgreatest)]

/-! ## Decimals -/

/-- A decimal as a quotient of natural numbers. -/
theorem cast_decimal (digits : ℕ) (place : ℤ) :
    ((digits * Nat.pow 10 place.toNat : ℕ) : ℚ) / (Nat.pow 10 (-place).toNat : ℕ) =
      digits * 10 ^ place := by
  rw [zpow_sides (by norm_num), Nat.pow_eq, Nat.pow_eq]
  push_cast
  rw [mul_div_assoc]

/-- A power of ten is at most the power of two with ten thirds of its exponent. -/
theorem pow_ten_le {k n : ℕ} (h : 10 * k ≤ 3 * n) : 10 ^ k ≤ 2 ^ n := by
  rw [← Nat.pow_le_pow_iff_left (by norm_num : 10 ≠ 0)]
  calc (10 ^ k) ^ 10 = 10 ^ (10 * k) := by rw [← pow_mul, mul_comm]
    _ ≤ 10 ^ (3 * n) := Nat.pow_le_pow_right (by norm_num) h
    _ = (10 ^ 3) ^ n := pow_mul _ _ _
    _ ≤ (2 ^ 10) ^ n := Nat.pow_le_pow_left (by norm_num) n
    _ = (2 ^ n) ^ 10 := by rw [← pow_mul, ← pow_mul, mul_comm]

/-- A power of two is at most the power of ten with 28 parts in 93 of its exponent. -/
theorem pow_two_le {k n : ℕ} (h : 28 * n ≤ 93 * k) : 2 ^ n ≤ 10 ^ k := by
  rw [← Nat.pow_le_pow_iff_left (by norm_num : 93 ≠ 0)]
  calc (2 ^ n) ^ 93 = (2 ^ 93) ^ n := by rw [← pow_mul, ← pow_mul, mul_comm]
    _ ≤ (10 ^ 28) ^ n := Nat.pow_le_pow_left (by norm_num) n
    _ = 10 ^ (28 * n) := (pow_mul _ _ _).symm
    _ ≤ 10 ^ (93 * k) := Nat.pow_le_pow_right (by norm_num) h
    _ = (10 ^ k) ^ 93 := by rw [← pow_mul, mul_comm]

/-- What rounds to a finite number that is not zero is neither too great nor too small to be rounded. -/
theorem RoundsTo.bounds {v : ℚ} {m : ℕ} {e : ℤ} (h : RoundsTo v m e) {negative : Bool}
    (hx : (finite negative m e).IsCanonical) (hm : 0 < m) :
    v < 2 ^ (1024 : ℤ) ∧ 2 ^ (-1075 : ℤ) ≤ v := by
  obtain ⟨hleast, hgreatest, hmost, -⟩ := hx
  have hpos : (0 : ℚ) < 2 ^ e := by positivity
  have hreach : reachBelow m e ≤ 1 / 2 := by
    unfold reachBelow
    split <;> norm_num
  have hlow := (le_div_iff₀ hpos).mp h.low
  have hhigh := (div_le_iff₀ hpos).mp h.high
  have hone : (1 : ℚ) ≤ m := by exact_mod_cast hm
  have htop : (m : ℚ) + 1 ≤ 2 ^ 53 := by exact_mod_cast hmost
  constructor
  · calc v ≤ (m + 1 / 2) * 2 ^ e := hhigh
      _ < 2 ^ 53 * 2 ^ e := mul_lt_mul_of_pos_right (by linarith) hpos
      _ = 2 ^ (53 + e) := by rw [zpow_add₀ two_ne_zero]; norm_num
      _ ≤ 2 ^ (1024 : ℤ) := zpow_le_zpow_right₀ one_le_two (by
          have : greatestExponent = 971 := rfl
          omega)
  · calc (2 : ℚ) ^ (-1075 : ℤ) ≤ 2 ^ (e - 1) := zpow_le_zpow_right₀ one_le_two (by
          have : leastExponent = -1074 := rfl
          omega)
      _ = 1 / 2 * 2 ^ e := by rw [zpow_sub_one₀ two_ne_zero]; ring
      _ ≤ (m - reachBelow m e) * 2 ^ e := mul_le_mul_of_nonneg_right (by linarith) hpos.le
      _ ≤ v := hlow

/-- A decimal that rounds to a finite number other than zero has digits. -/
theorem RoundsTo.digits_pos {digits : ℕ} {place : ℤ} {m : ℕ} {e : ℤ}
    (h : RoundsTo (digits * 10 ^ place) m e) {negative : Bool}
    (hx : (finite negative m e).IsCanonical) (hm : 0 < m) : 0 < digits := by
  by_contra hzero
  have hbottom := (h.bounds hx hm).2
  rw [Nat.eq_zero_of_not_pos hzero, Nat.cast_zero, zero_mul] at hbottom
  exact absurd hbottom (not_le.mpr (by positivity))

/-- A decimal that rounds to a finite number other than zero is read as it. -/
theorem ofDecimal_of_roundsTo (negative : Bool) {digits : ℕ} {place : ℤ} {m : ℕ} {e : ℤ}
    (hx : (finite negative m e).IsCanonical) (hm : 0 < m)
    (h : RoundsTo (digits * 10 ^ place) m e) :
    ofDecimal negative digits place = finite negative m e := by
  obtain ⟨htop, hbottom⟩ := h.bounds hx hm
  have hten : ∀ k : ℤ, (0 : ℚ) < 10 ^ k := fun k => by positivity
  have hdigits := h.digits_pos hx hm
  obtain ⟨hlow, hhigh⟩ := log2_bounds hdigits
  have hgreat : ¬1100 < place + ((digits.log2 : ℤ) + 1 - 1) * 3 / 10 := by
    intro hlarge
    have hpow : (10 : ℚ) ^ ((digits.log2 * 3 / 10 : ℕ) : ℤ) ≤ 2 ^ (digits.log2 : ℤ) := by
      rw [zpow_natCast, zpow_natCast]
      exact_mod_cast pow_ten_le (by omega : 10 * (digits.log2 * 3 / 10) ≤ 3 * digits.log2)
    have : (10 : ℚ) ^ (1024 : ℤ) ≤ digits * 10 ^ place := by
      calc (10 : ℚ) ^ (1024 : ℤ) ≤ 10 ^ (((digits.log2 * 3 / 10 : ℕ) : ℤ) + place) :=
            zpow_le_zpow_right₀ (by norm_num) (by omega)
        _ = 10 ^ ((digits.log2 * 3 / 10 : ℕ) : ℤ) * 10 ^ place := zpow_add₀ (by norm_num) _ _
        _ ≤ digits * 10 ^ place := mul_le_mul_of_nonneg_right (hpow.trans hlow) (hten _).le
    have htwo : (2 : ℚ) ^ (1024 : ℤ) ≤ 10 ^ (1024 : ℤ) :=
      zpow_le_zpow_left₀ (by norm_num) (by norm_num) (by norm_num)
    exact absurd htop (not_lt.mpr (htwo.trans this))
  have hsmall : ¬place + ((digits.log2 : ℤ) + 1) * 31 / 100 + 1 < -400 := by
    intro hlittle
    have hpow : (2 : ℚ) ^ ((digits.log2 : ℤ) + 1) ≤ 10 ^ (((digits.log2 + 1) * 31 / 100 + 1 : ℕ) : ℤ) := by
      rw [zpow_natCast]
      exact_mod_cast pow_two_le (by omega :
        28 * (digits.log2 + 1) ≤ 93 * ((digits.log2 + 1) * 31 / 100 + 1))
    have : (digits : ℚ) * 10 ^ place < 10 ^ (-400 : ℤ) := by
      calc (digits : ℚ) * 10 ^ place
          < 10 ^ (((digits.log2 + 1) * 31 / 100 + 1 : ℕ) : ℤ) * 10 ^ place :=
            mul_lt_mul_of_pos_right (hhigh.trans_le hpow) (hten _)
        _ = 10 ^ ((((digits.log2 + 1) * 31 / 100 + 1 : ℕ) : ℤ) + place) :=
            (zpow_add₀ (by norm_num) _ _).symm
        _ ≤ 10 ^ (-400 : ℤ) := zpow_le_zpow_right₀ (by norm_num) (by omega)
    have height : (10 : ℚ) ^ (-400 : ℤ) ≤ 2 ^ (-1075 : ℤ) := by
      calc (10 : ℚ) ^ (-400 : ℤ) ≤ (2 ^ (3 : ℤ)) ^ (-400 : ℤ) := by
            rw [zpow_neg, zpow_neg]
            exact inv_anti₀ (by positivity) (zpow_le_zpow_left₀ (by norm_num) (by norm_num) (by norm_num))
        _ = 2 ^ (-1200 : ℤ) := by rw [← zpow_mul]; norm_num
        _ ≤ 2 ^ (-1075 : ℤ) := zpow_le_zpow_right₀ one_le_two (by norm_num)
    exact absurd (this.trans_le height) (not_lt.mpr hbottom)
  rw [← cast_decimal] at h
  rw [ofDecimal, if_neg hdigits.ne']
  simp only [if_neg hgreat, if_neg hsmall]
  exact nearest_of_roundsTo negative (Nat.mul_pos hdigits (Nat.pow_pos (by norm_num)))
    (Nat.pow_pos (by norm_num)) hx h

/-- What a decimal is read as is a number in its one form. -/
theorem isCanonical_ofDecimal (negative : Bool) (digits : ℕ) (place : ℤ) :
    (ofDecimal negative digits place).IsCanonical := by
  have hzero : (finite negative 0 leastExponent).IsCanonical :=
    ⟨le_rfl, by decide, by norm_num, .inl rfl⟩
  unfold ofDecimal
  split
  · exact hzero
  · next hdigits =>
    dsimp only
    split
    · trivial
    · split
      · exact hzero
      · exact isCanonical_nearest negative
          (Nat.mul_pos (Nat.pos_of_ne_zero hdigits) (Nat.pow_pos (by norm_num)))
          (Nat.pow_pos (by norm_num))

end Binary64

end Showrunner

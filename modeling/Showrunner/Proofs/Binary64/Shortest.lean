import Showrunner.Binary64.Shortest
import Showrunner.Proofs.Binary64.Rounding

/-!
# Shortest decimals are read back

The search for the shortest decimal of a number goes from place to place, and takes a decimal that rounds
to the number as soon as one of the two around the number does. It finds one at the last place at the
latest: the decimals with 17 digits stand closer than the rationals that round to one number reach.
-/

namespace Showrunner

namespace Binary64

variable {num den m : ℕ} {e place : ℤ}

/-- A multiple of a power of two and a decimal, both in one unit. -/
theorem exists_unit (digits : ℕ) (e place : ℤ) :
    ∃ u : ℚ, 0 < u ∧ (∀ n : ℕ, ((shift n e * Nat.pow 10 (-place).toNat : ℕ) : ℚ) = n * u) ∧
      (shift (digits * Nat.pow 10 place.toNat) (-e) : ℚ) = digits * 10 ^ place / 2 ^ e * u := by
  refine ⟨2 ^ e.toNat * 10 ^ (-place).toNat, by positivity, fun n => ?_, ?_⟩
  · rw [Nat.cast_mul, cast_shift, Nat.pow_eq]
    push_cast
    ring
  · rw [cast_shift, zpow_sides two_ne_zero e, zpow_sides (by norm_num : (10 : ℚ) ≠ 0) place, Nat.pow_eq]
    push_cast
    field_simp

/-- The lower end of an interval, in quarters of a unit. -/
theorem cast_low (hm : 0 < m) (e : ℤ) :
    ((Interval.of m e).low : ℚ) = 4 * (m - reachBelow m e) := by
  rw [Interval.of, reachBelow]
  dsimp only
  by_cases hleast : m = 2 ^ 52 ∧ leastExponent < e
  · have hleast' : m = Nat.pow 2 52 ∧ leastExponent < e := hleast
    rw [if_pos hleast, if_pos hleast', Nat.cast_sub (by omega)]
    push_cast
    ring
  · have hleast' : ¬(m = Nat.pow 2 52 ∧ leastExponent < e) := hleast
    rw [if_neg hleast, if_neg hleast', Nat.cast_sub (by omega)]
    push_cast
    ring

/-- The interval of a number holds the decimals that round to it. -/
theorem holds_iff_roundsTo (hm : 0 < m) (digits : ℕ) (place : ℤ) :
    (Interval.of m e).holds digits place = true ↔ RoundsTo (digits * 10 ^ place) m e := by
  obtain ⟨u, hu, hscale, hpoint⟩ := exists_unit digits (e - 2) place
  have hquarter : (digits : ℚ) * 10 ^ place / 2 ^ (e - 2) = 4 * (digits * 10 ^ place / 2 ^ e) := by
    rw [zpow_sub₀ two_ne_zero]
    field_simp
    norm_num
  have hlow := cast_low hm e
  have hhigh : ((Interval.of m e).high : ℚ) = 4 * (m + 1 / 2) := by
    rw [Interval.of]
    push_cast
    ring
  have hexponent : (Interval.of m e).exponent = e - 2 := rfl
  have hclosed : (Interval.of m e).closed = true ↔ m % 2 = 0 := beq_iff_eq
  rw [Interval.holds, hexponent]
  dsimp only
  have hle : ∀ n : ℕ, shift n (e - 2) * Nat.pow 10 (-place).toNat ≤
      shift (digits * Nat.pow 10 place.toNat) (-(e - 2)) ↔
        (n : ℚ) ≤ 4 * (digits * 10 ^ place / 2 ^ e) := fun n => by
    rw [← @Nat.cast_le ℚ, hscale, hpoint, hquarter, mul_le_mul_iff_left₀ hu]
  have hge : ∀ n : ℕ, shift (digits * Nat.pow 10 place.toNat) (-(e - 2)) ≤
      shift n (e - 2) * Nat.pow 10 (-place).toNat ↔
        4 * (digits * 10 ^ place / 2 ^ e) ≤ (n : ℚ) := fun n => by
    rw [← @Nat.cast_le ℚ, hscale, hpoint, hquarter, mul_le_mul_iff_left₀ hu]
  split
  · next heven =>
    rw [hclosed] at heven
    rw [Bool.and_eq_true, decide_eq_true_eq, decide_eq_true_eq, hle, hge, hlow, hhigh,
      mul_le_mul_iff_right₀ four_pos, mul_le_mul_iff_right₀ four_pos]
    exact ⟨fun h => ⟨h.1, h.2, fun hodd => by omega⟩, fun h => ⟨h.low, h.high⟩⟩
  · next hodd =>
    rw [hclosed] at hodd
    rw [Bool.and_eq_true, decide_eq_true_eq, decide_eq_true_eq, ← not_le, ← not_le, hle, hge, hlow,
      hhigh, mul_le_mul_iff_right₀ four_pos, mul_le_mul_iff_right₀ four_pos, not_le, not_le]
    exact ⟨fun h => ⟨h.1.le, h.2.le, fun _ => h⟩, fun h => h.odd (by omega)⟩

/-! ## The search -/

variable {i : Interval} {d : Decimal}

/-- A decimal that is found at a place lies in the interval. -/
theorem holds_of_nearestAt (h : nearestAt i num den place = some d) :
    i.holds d.digits d.place = true := by
  unfold nearestAt at h
  dsimp only at h
  split at h
  · next hlow =>
    cases h
    exact (Bool.and_eq_true_iff.mp hlow).1
  · split at h
    · next hhigh =>
      cases h
      exact hhigh
    · cases h

/-- A place has a decimal in the interval if one of the two around the quotient is in it. -/
theorem exists_nearestAt {q : ℕ}
    (hq : num * Nat.pow 10 (-place).toNat / (den * Nat.pow 10 place.toNat) = q)
    (h : i.holds q place = true ∨ i.holds (q + 1) place = true) :
    ∃ d, nearestAt i num den place = some d := by
  unfold nearestAt
  dsimp only
  rw [hq]
  by_cases hhigh : i.holds (q + 1) place = true
  · rw [hhigh, if_pos rfl]
    split
    · exact ⟨_, rfl⟩
    · exact ⟨_, rfl⟩
  · have hlow := h.resolve_right hhigh
    rw [hlow, Bool.eq_false_iff.mpr hhigh]
    exact ⟨_, rfl⟩

/-- The search finds a decimal in the interval if there is one at the finest place. -/
theorem holds_searchFrom {grids : ℕ}
    (h : ∃ d, nearestAt i num den (place - grids) = some d) :
    i.holds (searchFrom i num den place (grids + 1)).digits
      (searchFrom i num den place (grids + 1)).place = true := by
  induction grids generalizing place with
  | zero =>
    obtain ⟨d, hd⟩ := h
    rw [Nat.cast_zero, sub_zero] at hd
    rw [searchFrom, hd]
    exact holds_of_nearestAt hd
  | succ grids ih =>
    rw [searchFrom]
    cases hfound : nearestAt i num den place with
    | some d => exact holds_of_nearestAt hfound
    | none =>
      refine ih ?_
      rwa [sub_sub, ← Nat.cast_one, ← Nat.cast_add, add_comm 1 grids]

/-- One of the two decimals around a number at a place rounds to it if the decimals of the place stand
closer than the rationals that round to it reach. -/
theorem holds_around (hm : 0 < m) {q : ℕ} (hlow : (q : ℚ) * 10 ^ place ≤ m * 2 ^ e)
    (hhigh : m * 2 ^ e < (q + 1 : ℚ) * 10 ^ place)
    (hclose : (10 : ℚ) ^ place / 2 ^ e < reachBelow m e + 1 / 2) :
    (Interval.of m e).holds q place = true ∨ (Interval.of m e).holds (q + 1) place = true := by
  have hpos : (0 : ℚ) < 2 ^ e := by positivity
  have hreach : 0 < reachBelow m e := by
    unfold reachBelow
    split <;> norm_num
  rw [holds_iff_roundsTo hm, holds_iff_roundsTo hm, Nat.cast_succ]
  have hbelow : (q : ℚ) * 10 ^ place / 2 ^ e ≤ m := (div_le_iff₀ hpos).mpr hlow
  have habove : (m : ℚ) < (q + 1) * 10 ^ place / 2 ^ e := (lt_div_iff₀ hpos).mpr hhigh
  have hsplit : ((q : ℚ) + 1) * 10 ^ place / 2 ^ e =
      q * 10 ^ place / 2 ^ e + 10 ^ place / 2 ^ e := by ring
  by_cases hnear : (m : ℚ) - reachBelow m e < q * 10 ^ place / 2 ^ e
  · exact .inl ⟨hnear.le, by linarith, fun _ => ⟨hnear, by linarith⟩⟩
  · exact .inr ⟨by linarith, by linarith, fun _ => ⟨by linarith, by linarith⟩⟩

/-! ## The places of a number -/

/-- A power of ten is at most a power of two where the exponents say so. -/
theorem zpow_ten_le {a b : ℤ} (hpos : 0 ≤ a → 10 * a ≤ 3 * b) (hneg : b < 0 → 28 * -b ≤ 93 * -a) :
    (10 : ℚ) ^ a ≤ 2 ^ b := by
  rcases lt_or_ge a 0 with ha | ha
  · rcases lt_or_ge b 0 with hb | hb
    · have hpow := pow_two_le (by omega : 28 * (-b).toNat ≤ 93 * (-a).toNat)
      have hcast : (2 : ℚ) ^ (-b) ≤ 10 ^ (-a) := by
        rw [← Int.toNat_of_nonneg (by omega : 0 ≤ -b), ← Int.toNat_of_nonneg (by omega : 0 ≤ -a),
          zpow_natCast, zpow_natCast]
        exact_mod_cast hpow
      rw [zpow_neg, zpow_neg] at hcast
      exact (inv_le_inv₀ (by positivity) (by positivity)).mp hcast
    · calc (10 : ℚ) ^ a ≤ 10 ^ (0 : ℤ) := zpow_le_zpow_right₀ (by norm_num) ha.le
        _ = 2 ^ (0 : ℤ) := by rw [zpow_zero, zpow_zero]
        _ ≤ 2 ^ b := zpow_le_zpow_right₀ one_le_two hb
  · have hb := hpos ha
    have hpow := pow_ten_le (by omega : 10 * a.toNat ≤ 3 * b.toNat)
    rw [← Int.toNat_of_nonneg ha, ← Int.toNat_of_nonneg (by omega : 0 ≤ b), zpow_natCast, zpow_natCast]
    exact_mod_cast hpow

/-- A quotient is at least the power of ten of its first digit. -/
theorem digitsBeforePoint_le (hnum : 0 < num) (hden : 0 < den)
    (hhigh : (num : ℚ) / den < 2 ^ (1024 : ℤ)) (hlow : (2 : ℚ) ^ (-1075 : ℤ) ≤ num / den) :
    (10 : ℚ) ^ (digitsBeforePoint num den - 1) ≤ num / den := by
  obtain ⟨habove, hbelow⟩ := quotient_bounds hnum hden
  have hL : (num.log2 : ℤ) - den.log2 ≤ 1024 := by
    have := (zpow_lt_zpow_iff_right₀ one_lt_two).mp (habove.trans hhigh)
    omega
  have hL' : -1076 ≤ (num.log2 : ℤ) - den.log2 := by
    have := (zpow_lt_zpow_iff_right₀ one_lt_two).mp (hlow.trans_lt hbelow)
    omega
  have hreaches : ∀ p : ℤ, den * Nat.pow 10 p.toNat ≤ num * Nat.pow 10 (-p).toNat ↔
      (10 : ℚ) ^ p ≤ num / den := by
    intro p
    have hd : (0 : ℚ) < den := by exact_mod_cast hden
    rw [← @Nat.cast_le ℚ, zpow_sides (by norm_num : (10 : ℚ) ≠ 0), Nat.pow_eq, Nat.pow_eq,
      div_le_div_iff₀ (by positivity) hd]
    push_cast
    rw [mul_comm (den : ℚ)]
  unfold digitsBeforePoint
  simp only [decide_eq_true_eq, hreaches]
  generalize hguess : ((num.log2 : ℤ) - den.log2) * 30103 / 100000 - 1 = guess
  have hstep : ∀ {a b : ℤ}, (10 : ℚ) ^ a ≤ num / den → b - 1 = a → (10 : ℚ) ^ (b - 1) ≤ num / den :=
    fun h hab => hab ▸ h
  split
  · next h => exact hstep h (by ring)
  · split
    · next h => exact hstep h (by ring)
    · split
      · next h => exact hstep h (by ring)
      · split
        · next h => exact hstep h (by ring)
        · exact (zpow_ten_le (by omega) (by omega)).trans habove.le

/-- The integer part of a quotient in units of a place. -/
theorem decimals_around (hden : 0 < den) (num : ℕ) (place : ℤ) :
    ((num * Nat.pow 10 (-place).toNat / (den * Nat.pow 10 place.toNat) : ℕ) : ℚ) * 10 ^ place ≤
        num / den ∧
      (num : ℚ) / den <
        ((num * Nat.pow 10 (-place).toNat / (den * Nat.pow 10 place.toNat) : ℕ) + 1 : ℚ) * 10 ^ place := by
  have hpos : (0 : ℚ) < 10 ^ place := by positivity
  have hunit : 0 < den * Nat.pow 10 place.toNat := Nat.mul_pos hden (Nat.pow_pos (by norm_num))
  have hunit' : (0 : ℚ) < (den * Nat.pow 10 place.toNat : ℕ) := by exact_mod_cast hunit
  have hratio : (num : ℚ) / den / 10 ^ place =
      (num * Nat.pow 10 (-place).toNat : ℕ) / (den * Nat.pow 10 place.toNat : ℕ) := by
    rw [zpow_sides (by norm_num : (10 : ℚ) ≠ 0) place, Nat.pow_eq, Nat.pow_eq]
    push_cast
    field_simp
  rw [← le_div_iff₀ hpos, ← div_lt_iff₀ hpos, hratio]
  rw [le_div_iff₀ hunit', div_lt_iff₀ hunit']
  exact ⟨by exact_mod_cast Nat.div_mul_le_self _ _,
    by exact_mod_cast (Nat.div_lt_iff_lt_mul hunit).mp (Nat.lt_succ_self _)⟩

/-- The shortest decimal of a number rounds to the number. -/
theorem roundsTo_shortest {negative : Bool} (hx : (finite negative m e).IsCanonical) (hm : 0 < m) :
    RoundsTo ((shortest m e).digits * 10 ^ (shortest m e).place) m e := by
  have hpos : (0 : ℚ) < 2 ^ e := by positivity
  have hreach : 0 < reachBelow m e := by
    unfold reachBelow
    split <;> norm_num
  have hself : RoundsTo (m * 2 ^ e) m e := by
    have hunits : (m : ℚ) * 2 ^ e / 2 ^ e = m := mul_div_cancel_right₀ _ hpos.ne'
    exact ⟨by rw [hunits]; linarith, by rw [hunits]; linarith, fun _ => by
      rw [hunits]
      exact ⟨by linarith, by linarith⟩⟩
  obtain ⟨hhigh, hlow⟩ := hself.bounds hx hm
  have hquotient : ((shift m e : ℕ) : ℚ) / (Nat.pow 2 (-e).toNat : ℕ) = m * 2 ^ e := by
    rw [cast_shift, zpow_sides two_ne_zero e, Nat.pow_eq]
    push_cast
    rw [mul_div_assoc]
  have hnum : 0 < shift m e := Nat.mul_pos hm (Nat.pow_pos two_pos)
  have hden : 0 < Nat.pow 2 (-e).toNat := Nat.pow_pos two_pos
  have hfirst := digitsBeforePoint_le hnum hden (hquotient ▸ hhigh) (hquotient ▸ hlow)
  rw [← holds_iff_roundsTo hm, shortest]
  generalize digitsBeforePoint (shift m e) (Nat.pow 2 (-e).toNat) - 1 = first at hfirst ⊢
  obtain ⟨hbelow, habove⟩ := decimals_around hden (shift m e) (first - (16 : ℕ))
  rw [hquotient] at hfirst hbelow habove
  -- it is enough that the seventeenth place is fine enough, whatever the search finds before
  refine holds_searchFrom (exists_nearestAt rfl (holds_around hm hbelow habove ?_))
  have hfine : (10 : ℚ) ^ (first - (16 : ℕ)) / 2 ^ e ≤ m / 10 ^ 16 := by
    rw [div_le_iff₀ hpos, zpow_sub₀ (by norm_num), zpow_natCast, div_mul_eq_mul_div]
    exact div_le_div_of_nonneg_right hfirst (by norm_num)
  refine hfine.trans_lt ?_
  obtain ⟨-, -, hmost, -⟩ := hx
  have hmost' : (m : ℚ) ≤ 2 ^ 53 := by exact_mod_cast hmost.le
  unfold reachBelow
  split
  · next hleast =>
    rw [hleast.1]
    norm_num
  · rw [div_lt_iff₀ (by norm_num)]
    exact hmost'.trans_lt (by norm_num)

end Binary64

end Showrunner

import Showrunner.Time.Stamp

/-!
# Days, months and years

The days of the calendar are counted through: a month begins where the one before it ends, and so does a
year. Each day therefore has one date, and the date of a day has the number of the day.
-/

namespace Showrunner

namespace Calendar

/-! ## Months -/

/-- The first month has no days before it. -/
theorem daysBeforeMonth_one (year : Nat) : daysBeforeMonth year 1 = 0 := rfl

/-- A month begins where the one before it ends. -/
theorem daysBeforeMonth_succ (year : Nat) {month : Nat} (hmonth : 1 ≤ month) :
    daysBeforeMonth year (month + 1) = daysBeforeMonth year month + daysInMonth year month := by
  obtain ⟨before, rfl⟩ := Nat.exists_eq_add_of_le' hmonth
  unfold daysBeforeMonth
  simp only [Nat.add_sub_cancel, List.range_succ, List.map_append, List.map_singleton, List.foldl_append,
    List.foldl_cons, List.foldl_nil]

/-- The months of a year are as long as the year. -/
theorem daysBeforeMonth_thirteen (year : Nat) : daysBeforeMonth year 13 = daysInYear year := by
  unfold daysInYear
  cases hleap : isLeap year <;> simp [daysBeforeMonth, daysInMonth, hleap, List.range_succ]

/-- A month has days. -/
theorem daysInMonth_pos (year month : Nat) : 28 ≤ daysInMonth year month := by
  unfold daysInMonth
  split
  · split <;> decide
  · split <;> decide

/-- A month has no more than 31 days. -/
theorem daysInMonth_le (year month : Nat) : daysInMonth year month ≤ 31 := by
  unfold daysInMonth
  split
  · split <;> decide
  · split <;> decide

/-- A later month has more days before it. -/
theorem daysBeforeMonth_le (year : Nat) {month month' : Nat} (hmonth : 1 ≤ month) (h : month ≤ month') :
    daysBeforeMonth year month ≤ daysBeforeMonth year month' := by
  obtain ⟨more, rfl⟩ := Nat.exists_eq_add_of_le h
  induction more with
  | zero => exact Nat.le_refl _
  | succ more ih =>
    rw [← Nat.add_assoc, daysBeforeMonth_succ year (by omega)]
    exact Nat.le_add_right_of_le (ih (Nat.le_add_right _ _))

/-- The months of a year end with the year. -/
theorem daysBeforeMonth_le_daysInYear (year : Nat) {month : Nat} (hmonth : 1 ≤ month) (h : month ≤ 13) :
    daysBeforeMonth year month ≤ daysInYear year :=
  daysBeforeMonth_thirteen year ▸ daysBeforeMonth_le year hmonth h

/-! ## Years -/

/-- A year begins where the one before it ends. -/
theorem daysBeforeYear_succ {year : Nat} (hyear : 1 ≤ year) :
    daysBeforeYear (year + 1) = daysBeforeYear year + daysInYear year := by
  obtain ⟨before, rfl⟩ := Nat.exists_eq_add_of_le' hyear
  -- a fourth year ends a group of four, a hundredth a century and a four hundredth a cycle
  have hgroup : (before + 1) / 4 = before / 4 + if (before + 1) % 4 = 0 then 1 else 0 := by split <;> omega
  have hcentury : (before + 1) / 100 = before / 100 + if (before + 1) % 100 = 0 then 1 else 0 := by
    split <;> omega
  have hcycle : (before + 1) / 400 = before / 400 + if (before + 1) % 400 = 0 then 1 else 0 := by
    split <;> omega
  have hfew : before / 100 ≤ before / 4 := by omega
  simp only [daysBeforeYear, daysInYear, isLeap, Nat.add_sub_cancel, hgroup, hcentury, hcycle]
  by_cases h4 : (before + 1) % 4 = 0
  · by_cases h100 : (before + 1) % 100 = 0
    · by_cases h400 : (before + 1) % 400 = 0 <;> simp [h4, h100, h400] <;> omega
    · have h400 : (before + 1) % 400 ≠ 0 := by omega
      simp [h4, h100, h400]
      omega
  · have h100 : (before + 1) % 100 ≠ 0 := by omega
    have h400 : (before + 1) % 400 ≠ 0 := by omega
    simp [h4, h100, h400]
    omega

/-- A later year has more days before it. -/
theorem daysBeforeYear_le {year year' : Nat} (hyear : 1 ≤ year) (h : year ≤ year') :
    daysBeforeYear year ≤ daysBeforeYear year' := by
  obtain ⟨more, rfl⟩ := Nat.exists_eq_add_of_le h
  induction more with
  | zero => exact Nat.le_refl _
  | succ more ih =>
    rw [← Nat.add_assoc, daysBeforeYear_succ (by omega)]
    exact Nat.le_add_right_of_le (ih (Nat.le_add_right _ _))

/-- The calendar ends with its last year. -/
theorem daysBeforeYear_lastYear : daysBeforeYear (lastYear + 1) = dayCount := rfl

/-- A day lies in its year. -/
theorem yearOf_spec (n : Nat) :
    1 ≤ yearOf n ∧ daysBeforeYear (yearOf n) ≤ n ∧ n < daysBeforeYear (yearOf n + 1) := by
  -- a cycle is cut into centuries, groups of four years and years, of which the last may be longer
  obtain ⟨cycle, hcycle⟩ : ∃ cycle, n / 146097 = cycle := ⟨_, rfl⟩
  obtain ⟨inCycle, hinCycle⟩ : ∃ inCycle, n % 146097 = inCycle := ⟨_, rfl⟩
  obtain ⟨century, hcentury⟩ : ∃ century, min 3 (inCycle / 36524) = century := ⟨_, rfl⟩
  obtain ⟨inCentury, hinCentury⟩ : ∃ inCentury, inCycle - century * 36524 = inCentury := ⟨_, rfl⟩
  obtain ⟨group, hgroup⟩ : ∃ group, inCentury / 1461 = group := ⟨_, rfl⟩
  obtain ⟨inGroup, hinGroup⟩ : ∃ inGroup, inCentury % 1461 = inGroup := ⟨_, rfl⟩
  obtain ⟨year, hyear⟩ : ∃ year, min 3 (inGroup / 365) = year := ⟨_, rfl⟩
  have hof : yearOf n = cycle * 400 + century * 100 + group * 4 + year + 1 := by
    simp only [yearOf, hcycle, hinCycle, hcentury, hinCentury, hgroup, hinGroup, hyear]
  have hday : n = cycle * 146097 + century * 36524 + group * 1461 + inGroup := by omega
  have hcentury' : century ≤ 3 := by omega
  have hgroup' : group ≤ 24 := by omega
  have hyear' : year ≤ 3 := by omega
  have hbegin : daysBeforeYear (yearOf n) = cycle * 146097 + century * 36524 + group * 1461 + year * 365 := by
    have hcycles : (cycle * 400 + century * 100 + group * 4 + year) / 400 = cycle := by omega
    have hcenturies : (cycle * 400 + century * 100 + group * 4 + year) / 100 = cycle * 4 + century := by omega
    have hgroups : (cycle * 400 + century * 100 + group * 4 + year) / 4 = cycle * 100 + century * 25 + group := by
      omega
    rw [hof, daysBeforeYear, Nat.add_sub_cancel, hcycles, hcenturies, hgroups]
    omega
  have hlength : inGroup < year * 365 + daysInYear (yearOf n) := by
    unfold daysInYear
    split
    · omega
    · next hshort =>
      -- a group has its last day only if its last year is long
      have hlast : inGroup ≠ 1460 := by
        rintro rfl
        have hyear : year = 3 := by omega
        have hfour : yearOf n % 4 = 0 := by omega
        have hend : group < 24 ∨ century = 3 := by omega
        have hhundred : yearOf n % 100 ≠ 0 ∨ yearOf n % 400 = 0 := by omega
        exact hshort (by simpa [isLeap, hfour] using hhundred)
      omega
  refine ⟨by omega, by omega, ?_⟩
  rw [daysBeforeYear_succ (by omega), hbegin]
  omega

/-- The months from one on count down the days of a year from a day on. -/
theorem monthFrom_spec {year inYear month months : Nat} (hmonth : 1 ≤ month)
    (h : daysBeforeMonth year month + inYear < daysBeforeMonth year (month + months + 1)) :
    month ≤ (monthFrom year inYear month months).1 ∧
      (monthFrom year inYear month months).1 ≤ month + months ∧
      daysBeforeMonth year (monthFrom year inYear month months).1 + (monthFrom year inYear month months).2 =
        daysBeforeMonth year month + inYear ∧
      (monthFrom year inYear month months).2 < daysInMonth year (monthFrom year inYear month months).1 := by
  induction months generalizing inYear month with
  | zero =>
    rw [Nat.add_zero, daysBeforeMonth_succ year hmonth] at h
    rw [monthFrom]
    exact ⟨Nat.le_refl _, Nat.le_refl _, rfl, by dsimp only; omega⟩
  | succ months ih =>
    rw [monthFrom]
    split
    · next hwithin => exact ⟨Nat.le_refl _, Nat.le_add_right _ _, rfl, hwithin⟩
    · next hbeyond =>
      have hsucc := daysBeforeMonth_succ year hmonth
      obtain ⟨hlow, hhigh, hcount, hday⟩ := @ih (inYear - daysInMonth year month) (month + 1) (by omega)
        (by rw [hsucc, show month + 1 + months + 1 = month + (months + 1) + 1 by omega]; omega)
      exact ⟨by omega, by omega, by omega, hday⟩

/-- The date of a day is one of its year, and it has the number of the day. -/
theorem Date.ofDay_spec (n : Nat) :
    (Date.ofDay n).toDay = n ∧ (Date.ofDay n).year = yearOf n ∧
      (1 ≤ (Date.ofDay n).month ∧ (Date.ofDay n).month ≤ 12) ∧
      1 ≤ (Date.ofDay n).day ∧ (Date.ofDay n).day ≤ daysInMonth (yearOf n) (Date.ofDay n).month := by
  obtain ⟨hyear, hlow, hhigh⟩ := yearOf_spec n
  rw [daysBeforeYear_succ hyear, ← daysBeforeMonth_thirteen] at hhigh
  obtain ⟨hfirst, hlast, hcount, hday⟩ := @monthFrom_spec (yearOf n) (n - daysBeforeYear (yearOf n)) 1 11
    (Nat.le_refl 1) (by rw [daysBeforeMonth_one, show 1 + 11 + 1 = 13 from rfl]; omega)
  rw [daysBeforeMonth_one, Nat.zero_add] at hcount
  refine ⟨?_, rfl, ⟨hfirst, hlast⟩, Nat.le_add_left 1 _, hday⟩
  simp only [Date.toDay, Date.ofDay, Nat.add_sub_cancel]
  omega

/-- A day of the calendar lies in one of its years. -/
theorem yearOf_le {n : Nat} (h : n < dayCount) : yearOf n ≤ lastYear := by
  obtain ⟨hyear, hlow, -⟩ := yearOf_spec n
  refine Nat.le_of_lt_succ (Nat.lt_of_not_le fun hlater => ?_)
  have hend := daysBeforeYear_le (show 1 ≤ lastYear + 1 by decide) hlater
  rw [daysBeforeYear_lastYear] at hend
  omega

end Calendar

end Showrunner

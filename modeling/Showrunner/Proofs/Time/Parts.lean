import Showrunner.Proofs.Time.Calendar
import Showrunner.Time.Stamp

/-!
# Wall readings by their parts

A wall reading has a date and a time of day, and is told by their numbers. Readings are in the order of their
years, then of their months, days, hours, minutes, seconds and microseconds, since the days are counted through
the calendar and the microseconds through the day.
-/

namespace Showrunner

namespace Calendar

variable {d e : Date} {m n : Nat}

/-! ## Dates -/

/-- A date lies in a month of a year. -/
structure Date.Exists (d : Date) : Prop where
  year : 1 ≤ d.year
  month : 1 ≤ d.month ∧ d.month ≤ 12
  day : 1 ≤ d.day ∧ d.day ≤ daysInMonth d.year d.month

/-- A date precedes another by its year, else by its month, else by its day. -/
def Date.Precedes (d e : Date) : Prop :=
  d.year < e.year ∨ d.year = e.year ∧ (d.month < e.month ∨ d.month = e.month ∧ d.day < e.day)

/-- The date of a day lies in a month of a year. -/
theorem Date.exists_ofDay (n : Nat) : (ofDay n).Exists := by
  obtain ⟨-, hyear, hmonth, hday⟩ := ofDay_spec n
  exact ⟨hyear ▸ (yearOf_spec n).1, hmonth, hyear ▸ hday⟩

/-- A date comes before the end of its month. -/
theorem Date.Exists.toDay_lt_month (h : d.Exists) :
    d.toDay < daysBeforeYear d.year + daysBeforeMonth d.year (d.month + 1) := by
  rw [daysBeforeMonth_succ d.year h.month.1, toDay]
  have := h.day
  omega

/-- A date comes before the end of its year. -/
theorem Date.Exists.toDay_lt_year (h : d.Exists) : d.toDay < daysBeforeYear (d.year + 1) := by
  have hmonth := h.toDay_lt_month
  have hlast := h.month.2
  have hyear : daysBeforeMonth d.year (d.month + 1) ≤ daysInYear d.year :=
    daysBeforeMonth_le_daysInYear d.year (by omega) (by omega)
  rw [daysBeforeYear_succ h.year]
  omega

/-- A date that precedes another has the smaller number. -/
theorem Date.Precedes.toDay_lt (h : d.Precedes e) (hd : d.Exists) : d.toDay < e.toDay := by
  rcases h with hyear | ⟨hyear, hmonth | ⟨hmonth, hday⟩⟩
  · have hbegin : daysBeforeYear (d.year + 1) ≤ daysBeforeYear e.year := daysBeforeYear_le (by omega) hyear
    calc d.toDay < daysBeforeYear (d.year + 1) := hd.toDay_lt_year
      _ ≤ daysBeforeYear e.year := hbegin
      _ ≤ e.toDay := by rw [toDay, Nat.add_assoc]; exact Nat.le_add_right _ _
  · have hbegin : daysBeforeMonth d.year (d.month + 1) ≤ daysBeforeMonth d.year e.month :=
      daysBeforeMonth_le d.year (by omega) hmonth
    calc d.toDay < daysBeforeYear d.year + daysBeforeMonth d.year (d.month + 1) := hd.toDay_lt_month
      _ ≤ daysBeforeYear e.year + daysBeforeMonth e.year e.month := by
        rw [← hyear]
        exact Nat.add_le_add_left hbegin _
      _ ≤ e.toDay := Nat.le_add_right _ _
  · have hfirst := hd.day.1
    rw [toDay, toDay, hyear, hmonth]
    omega

/-- A date is told by its year, its month and its day. -/
theorem Date.eq_iff : d = e ↔ d.year = e.year ∧ d.month = e.month ∧ d.day = e.day :=
  iff_of_eq (Date.mk.injEq ..)

/-- Of two dates one precedes the other, or they are the same. -/
theorem Date.precedes_trichotomy (d e : Date) : d.Precedes e ∨ d = e ∨ e.Precedes d := by
  rw [Date.eq_iff, Precedes, Precedes]
  omega

/-- Dates are in the order of their numbers. -/
theorem Date.precedes_iff (hd : d.Exists) (he : e.Exists) : d.Precedes e ↔ d.toDay < e.toDay := by
  refine ⟨fun h => h.toDay_lt hd, fun hlt => ?_⟩
  rcases d.precedes_trichotomy e with hbefore | rfl | hbehind
  · exact hbefore
  · exact absurd hlt (Nat.lt_irrefl _)
  · exact absurd hlt (Nat.lt_asymm (hbehind.toDay_lt he))

/-- A date of the calendar is made of its year, its month and its day. -/
theorem Date.Exists.of_eq_ok (h : d.Exists) (hlast : d.year ≤ lastYear) :
    Date.of d.year d.month d.day = .ok d := by
  obtain ⟨hyear, hmonth, hday⟩ := h
  rw [Date.of, if_neg (by omega), if_neg (by omega), if_neg (by omega)]

/-! ## Times of day -/

/-- A time of day precedes another by its hour, else by its minute, else by its second, else by its
microsecond. -/
def Clock.Precedes (c c' : Clock) : Prop :=
  c.hour < c'.hour ∨ c.hour = c'.hour ∧ (c.minute < c'.minute ∨ c.minute = c'.minute ∧
    (c.second < c'.second ∨ c.second = c'.second ∧ c.micro < c'.micro))

/-- Times of day are in the order of their numbers. -/
theorem Clock.precedes_ofMicros : (ofMicros m).Precedes (ofMicros n) ↔ m < n := by
  simp only [Precedes, ofMicros, microsPerSecond]
  omega

/-- A time of day has the number that it is made of. -/
theorem Clock.toMicros_ofMicros (n : Nat) : (ofMicros n).toMicros = n := by
  simp only [toMicros, ofMicros, microsPerSecond]
  omega

/-- A time of day is made of an hour, a minute, a second and a microsecond within their ranges. -/
theorem Clock.ofMicros_lt (h : n < microsPerDay) :
    (ofMicros n).hour < 24 ∧ (ofMicros n).minute < 60 ∧ (ofMicros n).second < 60 ∧
      (ofMicros n).micro < microsPerSecond := by
  simp only [ofMicros, microsPerDay, microsPerSecond] at h ⊢
  omega

/-- A time of day is made of its parts. -/
theorem Clock.of_ofMicros (h : n < microsPerDay) :
    Clock.of (ofMicros n).hour (ofMicros n).minute (ofMicros n).second (ofMicros n).micro =
      .ok (ofMicros n) := by
  obtain ⟨hhour, hminute, hsecond, -⟩ := ofMicros_lt h
  rw [Clock.of, if_neg (by omega), if_neg (by omega), if_neg (by omega)]

end Calendar

/-! ## Wall readings -/

namespace Wall

open Calendar

variable {v w : Wall}

/-- A wall reading is a day and a number of microseconds in it. -/
theorem day_add_micros (w : Wall) : w.day * microsPerDay + w.val % microsPerDay = w.val :=
  Nat.div_add_mod' _ _

/-- The microseconds of a wall reading lie in its day. -/
theorem micros_lt (w : Wall) : w.val % microsPerDay < microsPerDay := Nat.mod_lt _ (by decide)

/-- The day of a wall reading is one of the calendar. -/
theorem day_lt (w : Wall) : w.day < dayCount := by
  have hlt : w.val < wallCount := w.isLt
  unfold day
  simp only [wallCount, dayCount, microsPerDay, microsPerSecond] at *
  omega

/-- The date of a wall reading has the number of its day. -/
theorem toDay_date (w : Wall) : w.date.toDay = w.day := (Date.ofDay_spec w.day).1

/-- The date of a wall reading lies in a month of a year. -/
theorem exists_date (w : Wall) : w.date.Exists := Date.exists_ofDay w.day

/-- The date of a wall reading lies in a year of the calendar. -/
theorem year_date_le (w : Wall) : w.date.year ≤ lastYear := by
  rw [date, (Date.ofDay_spec w.day).2.1]
  exact yearOf_le w.day_lt

/-- A date and a time of day make the wall reading of which they are the parts. -/
theorem ofDay?_parts (w : Wall) : ofDay? w.date.toDay w.clock = some w := by
  rw [ofDay?, toDay_date, clock, Clock.toMicros_ofMicros]
  have hval : ((w.day : Int) * (microsPerDay : Int) + (w.val % microsPerDay : Nat)) = (w.val : Int) := by
    exact_mod_cast w.day_add_micros
  rw [hval, ofMicros?, dif_pos ⟨by omega, by have := w.isLt; omega⟩]
  congr 1

/-- Wall readings are in the order of their dates, those of one date in the order of their times of day. -/
theorem lt_iff_parts : v < w ↔ v.date.Precedes w.date ∨ v.date = w.date ∧ v.clock.Precedes w.clock := by
  have hdate : v.date = w.date ↔ v.day = w.day := by
    refine ⟨fun h => ?_, fun h => by rw [date, date, h]⟩
    rw [← toDay_date, ← toDay_date, h]
  rw [Date.precedes_iff v.exists_date w.exists_date, toDay_date, toDay_date, hdate, clock, clock,
    Clock.precedes_ofMicros, Fin.lt_def]
  have hv := v.day_add_micros
  have hw := w.day_add_micros
  have hvm := v.micros_lt
  have hwm := w.micros_lt
  simp only [microsPerDay, microsPerSecond] at *
  omega

end Wall

end Showrunner

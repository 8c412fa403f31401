import Mathlib.Data.List.Count
import Mathlib.Data.List.Nodup
import Showrunner.Proofs.Recurrence.Order

/-!
# Plain rules

A rule of weeks or less that says nothing but its frequency, its interval and perhaps its count has an occurrence
at its start, and again and again as the interval passes, until the count is used up or the calendar ends.
-/

namespace Showrunner

namespace Recurrence

open Calendar

variable {r : Rule} {c c' : Cursor} {filtered : Bool}

/-! ## The period of an occurrence -/

/-- A rule of weeks or less names no more than what of its start is finer than its frequency. -/
structure Rule.Plain (r : Rule) : Prop where
  fine : 2 ≤ r.frequency.rank
  clocked : r.Clocked
  week : r.weekStart < 7
  interval : 0 < r.interval
  til : r.til = none
  positions : r.positions = []
  months : r.months = []
  weeks : r.weeks = []
  weekdays : r.weekdays = if r.frequency = .weekly then [Calendar.weekday r.start.wall.day] else []
  nthWeekdays : r.nthWeekdays = []
  easterDays : r.easterDays = []
  monthDays : r.monthDays = []
  yearDays : r.yearDays = []
  hours : 4 ≤ r.frequency.rank → r.hours = []
  minutes : 4 ≤ r.frequency.rank →
    r.minutes = if r.frequency = .hourly then [(r.start.wall.clock.minute : Int)] else []
  seconds : 4 ≤ r.frequency.rank →
    r.seconds = if r.frequency = .secondly then [] else [(r.start.wall.clock.second : Int)]
  dayTimes : r.frequency.rank < 4 → r.dayTimes = [r.start.wall.val % microsPerDay / microsPerSecond]

/-- A period of a plain rule has one occurrence: on its own day, or on the weekday of the start in its week, at
the time of its clock. -/
structure Rule.Stands (r : Rule) (c : Cursor) (day : Int) : Prop where
  placed : c.Placed r
  times : c.times = [c.secondOfDay.toNat]
  minute : r.frequency = .hourly → c.minute = r.start.wall.clock.minute
  second : r.frequency = .hourly ∨ r.frequency = .minutely → c.second = r.start.wall.clock.second
  own : r.frequency ≠ .weekly → day = c.dayNumber
  week : r.frequency = .weekly → c.dayNumber ≤ day ∧ day + (c.dayNumber - r.weekStart) % 7 ≤ c.dayNumber + 6 ∧
    day % 7 = Calendar.weekday r.start.wall.day

/-- Of a list without repetitions, a test that a single element passes keeps that one. -/
theorem filter_eq_singleton {l : List Nat} {p : Nat → Bool} {a : Nat} (hnodup : l.Nodup) (hmem : a ∈ l)
    (hp : ∀ b ∈ l, p b = true ↔ b = a) : l.filter p = [a] := by
  have hsame : l.filter p = l.filter (· == a) :=
    List.filter_congr fun b hb => Bool.eq_iff_iff.mpr ((hp b hb).trans beq_iff_eq.symm)
  rw [hsame, List.filter_beq, List.count_eq_one_of_mem hnodup hmem]
  rfl

/-- A plain rule keeps every day, unless it is weekly: then it keeps those of the weekday of its start. -/
theorem Rule.Plain.keeps (h : r.Plain) (frame : Frame) (i : Nat) : frame.keeps r i =
    (r.frequency != .weekly || frame.weekday i == Calendar.weekday r.start.wall.day) := by
  simp only [Frame.keeps, h.months, h.weeks, h.nthWeekdays, h.easterDays, h.monthDays, h.yearDays, h.weekdays,
    List.isEmpty_nil, Bool.true_or, Bool.true_and, Bool.and_true]
  by_cases hweekly : r.frequency = .weekly
  · rw [if_pos hweekly, hweekly]
    exact Bool.or_false _
  · rw [if_neg hweekly, bne_iff_ne.mpr hweekly]
    rfl

/-- A plain rule keeps one day of a period, that of its occurrence, and it drops none unless it is weekly. -/
theorem Rule.Stands.keeps {day : Int} (hplain : r.Plain) (h : r.Stands c day) :
    ∃ first stop, r.periodDays c = .ok (first, stop) ∧ (r.frequency ≠ .weekly → stop = first + 1) ∧
      ∃ i : Nat, (c.frame.firstDay + i : Int) = day ∧
        ((List.range (stop - first)).map (first + ·)).filter (c.frame.keeps r) = [i] := by
  obtain ⟨_, _, hof⟩ := h.placed.frame
  obtain ⟨-, hfirst, hweekday⟩ := Frame.of_year hof
  obtain ⟨first, hdate, hnumber⟩ := (h.placed.dated hplain.fine).dayOfYear hfirst
  by_cases hweekly : r.frequency = .weekly
  · obtain ⟨hlow, hhigh, hday⟩ := h.week hweekly
    have hweek := hplain.week
    have hperiod : r.periodDays c =
        .ok (first, first + daysToWeekStart (c.frame.weekday first) r.weekStart) := by
      unfold periodDays
      rw [hweekly, hdate]
      rfl
    refine ⟨first, _, hperiod, fun hother => absurd hweekly hother, (day - c.frame.firstDay).toNat, by omega, ?_⟩
    unfold daysToWeekStart Frame.weekday
    rw [hweekday]
    unfold Calendar.weekday at hday ⊢
    refine filter_eq_singleton ?_ ?_ fun j hj => ?_
    · exact List.nodup_range.map fun a b hab => Nat.add_left_cancel hab
    · exact List.mem_map.mpr ⟨(day - c.frame.firstDay).toNat - first, List.mem_range.mpr (by omega), by omega⟩
    · obtain ⟨k, hk, rfl⟩ := List.mem_map.mp hj
      have hk := List.mem_range.mp hk
      simp only [hplain.keeps, hweekly, bne_self_eq_false, Bool.false_or, beq_iff_eq, Frame.weekday, hweekday,
        Calendar.weekday]
      omega
  · have hday := h.own hweekly
    have hperiod : r.periodDays c = .ok (first, first + 1) := by
      have hfine := hplain.fine
      unfold periodDays
      rw [hdate]
      cases hfrequency : r.frequency
      case yearly => exact absurd hfine (hfrequency ▸ by decide)
      case monthly => exact absurd hfine (hfrequency ▸ by decide)
      case weekly => exact absurd hfrequency hweekly
      all_goals rfl
    refine ⟨first, first + 1, hperiod, fun _ => rfl, first, by omega, ?_⟩
    rw [Nat.add_sub_cancel_left, List.range_one, List.map_singleton, Nat.add_zero]
    refine List.filter_cons_of_pos ?_
    rw [hplain.keeps, bne_iff_ne.mpr hweekly, Bool.true_or]

/-- A period of a plain rule has the candidate of its occurrence, and it drops no days unless it is a week. -/
theorem Rule.Stands.candidates {day : Int} (hplain : r.Plain) (h : r.Stands c day) :
    ∃ filtered, r.candidates c = .ok ([Wall.ofMicros? ((day * 86400 + c.secondOfDay) * 1000000)], filtered) ∧
      (r.frequency ≠ .weekly → filtered = false) := by
  obtain ⟨first, stop, hperiod, hstop, i, hday, hkept⟩ := h.keeps hplain
  have hsecond := h.placed.secondOfDay_mem
  have hwall : c.frame.wallAt i c.secondOfDay.toNat =
      Wall.ofMicros? ((day * 86400 + c.secondOfDay) * 1000000) := by
    unfold Frame.wallAt microsPerDay microsPerSecond
    congr 1
    omega
  refine ⟨[i].length != ((List.range (stop - first)).map (first + ·)).length, ?_, fun hother => ?_⟩
  · unfold Rule.candidates
    rw [hperiod]
    simp only [bind, Except.bind, hkept, h.times, hplain.positions]
    rw [← hwall]
    rfl
  · rw [hstop hother, List.length_map, List.length_range, Nat.add_sub_cancel_left]
    rfl

/-! ## From occurrence to occurrence -/

/-- Every year of the calendar has a frame under a plain rule. -/
theorem Rule.Plain.exists_frame (h : r.Plain) {year month : Int} (hyear : 1 ≤ year ∧ year ≤ 9999) :
    ∃ frame, Frame.of r year month = .ok frame := by
  unfold Frame.of namedWeeks namedNths namedEasters
  rw [if_neg (by omega), h.weeks, h.nthWeekdays, h.easterDays]
  exact ⟨_, rfl⟩

/-- Under a plain rule a date moves to a later one, or beyond the calendar. -/
theorem Cursor.Dated.moves {days : Int} (hplain : r.Plain) (hdated : c.Dated)
    (hframe : ∃ year month, Frame.of r year month = .ok c.frame) (hdays : 1 ≤ c.day + days) :
    (∃ frame month day, c.atDay r (c.day + days) =
        .ok (some { c with frame := frame, month := month, day := day }) ∧
      Cursor.dayNumber { c with frame := frame, month := month, day := day } = c.dayNumber + days) ∨
    (c.atDay r (c.day + days) = .ok none ∧ dayCount ≤ c.dayNumber + days) := by
  rcases c.atDay_cases r hframe hdated.month hdays with
    ⟨frame, month, day, hsome, -, -, hnumber⟩ | ⟨hnone, hbeyond⟩ | ⟨halt, year, month, -, hof, hyear, -⟩
  · exact .inl ⟨frame, month, day, hsome, by omega⟩
  · exact .inr ⟨hnone, by omega⟩
  · obtain ⟨frame, hframe⟩ := @Rule.Plain.exists_frame r hplain year month hyear
    cases hof.symm.trans hframe

/-- What a period of a plain rule comes to when time passes: a period whose occurrence lies as much later, or
the end of the calendar. -/
def Rule.Passing (r : Rule) (c : Cursor) (day : Int) (next : Except Halt (Option Cursor)) : Prop :=
  (∃ c' day', next = .ok (some c') ∧ r.Stands c' day' ∧
    day' * 86400 + c'.secondOfDay = day * 86400 + c.secondOfDay + r.interval * r.frequency.seconds) ∨
  (next = .ok none ∧ dayCount * 86400 ≤ day * 86400 + c.secondOfDay + r.interval * r.frequency.seconds)

/-- The times of a single hour, minute and second are one time. -/
theorem timesOfDay_single {hour minute second : Int} (hhour : 0 ≤ hour ∧ hour < 24)
    (hminute : 0 ≤ minute ∧ minute < 60) (hsecond : 0 ≤ second ∧ second < 60) :
    timesOfDay [hour] [minute] [second] = .ok [((hour * 60 + minute) * 60 + second).toNat] := by
  have htime : timeOfDay hour minute second = .ok ((hour * 60 + minute) * 60 + second).toNat := by
    unfold timeOfDay
    rw [if_pos (by omega)]
  simp only [timesOfDay, List.mapM_cons, List.mapM_nil, htime, bind, Except.bind, pure, Except.pure]
  exact congrArg Except.ok (List.mergeSort_singleton _)

/-- A plain rule of a clock has one time in each of its periods. -/
theorem Rule.Plain.periodTimes {hour minute second : Int} (hplain : r.Plain) (hrank : 4 ≤ r.frequency.rank)
    (hhour : 0 ≤ hour ∧ hour < 24) (hminute : 0 ≤ minute ∧ minute < 60) (hsecond : 0 ≤ second ∧ second < 60)
    (hsame : r.frequency = .hourly → minute = r.start.wall.clock.minute)
    (hsame' : r.frequency = .hourly ∨ r.frequency = .minutely → second = r.start.wall.clock.second) :
    r.periodTimes hour minute second = .ok [((hour * 60 + minute) * 60 + second).toNat] := by
  rw [← timesOfDay_single hhour hminute hsecond]
  unfold Rule.periodTimes
  have hminutes := hplain.minutes hrank
  have hseconds := hplain.seconds hrank
  cases hfrequency : r.frequency <;> rw [hfrequency] at hminutes hseconds
  case hourly =>
    dsimp only
    rw [hminutes, hseconds, if_pos rfl, if_neg (by decide), hsame hfrequency, hsame' (.inl hfrequency)]
  case minutely =>
    dsimp only
    rw [hseconds, if_neg (by decide), hsame' (.inr hfrequency)]

/-- A plain rule of a clock passes to a time of the clock as the days pass. -/
theorem Rule.Stands.passing_clock {day hour minute second : Int} (days : Int) (hplain : r.Plain)
    (hstands : r.Stands c day) (hrank : 4 ≤ r.frequency.rank) (hdays : 0 ≤ days)
    (hhour : 0 ≤ hour ∧ hour < 24) (hminute : 0 ≤ minute ∧ minute < 60) (hsecond : 0 ≤ second ∧ second < 60)
    (hsame : r.frequency = .hourly → minute = c.minute)
    (hsame' : r.frequency = .hourly ∨ r.frequency = .minutely → second = c.second)
    (htime : days * 86400 + ((hour * 60 + minute) * 60 + second) =
      c.secondOfDay + r.interval * r.frequency.seconds)
    (h : r.nextPeriod c filtered = (do
      let times ← r.periodTimes hour minute second
      { c with hour := hour, minute := minute, second := second, times := times }.afterDays r days)) :
    r.Passing c day (r.nextPeriod c filtered) := by
  have hother : r.frequency ≠ .weekly := fun hweekly => absurd hrank (hweekly ▸ by decide)
  have hdated := hstands.placed.dated hplain.fine
  have hown := hstands.own hother
  have hstart := hdated.day.1
  have hminute' : r.frequency = .hourly → minute = r.start.wall.clock.minute := fun hf =>
    (hsame hf).trans (hstands.minute hf)
  have hsecond' : r.frequency = .hourly ∨ r.frequency = .minutely → second = r.start.wall.clock.second := fun hf =>
    (hsame' hf).trans (hstands.second hf)
  rw [hplain.periodTimes hrank hhour hminute hsecond hminute' hsecond'] at h
  -- the period that follows has the time of the clock, wherever its date is
  have hpasses : ∀ {frame month day'}, r.nextPeriod c filtered =
        .ok (some ⟨frame, month, day', hour, minute, second, c.weekday,
          [((hour * 60 + minute) * 60 + second).toNat]⟩) →
      Cursor.dayNumber ⟨frame, month, day', hour, minute, second, c.weekday,
        [((hour * 60 + minute) * 60 + second).toNat]⟩ = c.dayNumber + days →
      r.Passing c day (r.nextPeriod c filtered) := by
    intro frame month day' hnext hnumber
    have hplaced := (placed_nextPeriod hplain.clocked hplain.week hplain.interval hstands.placed hnext).1
    refine .inl ⟨_, day + days, hnext, ⟨hplaced, rfl, hminute', hsecond', fun _ => ?_, fun hf => absurd hf hother⟩,
      ?_⟩
    · rw [hnumber, hown]
    · unfold Cursor.secondOfDay at htime ⊢
      dsimp only
      omega
  by_cases hzero : days = 0
  · refine @hpasses c.frame c.month c.day (h.trans ?_) ?_
    · exact if_pos hzero
    · rw [hzero, Int.add_zero]
      rfl
  · have hafter : r.nextPeriod c filtered = Cursor.atDay { c with
        hour := hour, minute := minute, second := second, times := [((hour * 60 + minute) * 60 + second).toNat] }
        r (c.day + days) := h.trans (if_neg hzero)
    have hdated' : Cursor.Dated { c with
        hour := hour, minute := minute, second := second,
        times := [((hour * 60 + minute) * 60 + second).toNat] } := ⟨hdated.year, hdated.month, hdated.day⟩
    rcases @Cursor.Dated.moves _ _ days hplain hdated' hstands.placed.frame (by dsimp only; omega) with
      ⟨frame, month, day', hsome, hnumber⟩ | ⟨hnone, hbeyond⟩
    · exact hpasses (hafter.trans hsome) hnumber
    · refine .inr ⟨hafter.trans hnone, ?_⟩
      change dayCount ≤ c.dayNumber + days at hbeyond
      omega

/-- A plain rule of weeks passes to the weekday of its start in a later week. -/
theorem Rule.Stands.passing_weekly {day : Int} (hplain : r.Plain) (hstands : r.Stands c day)
    (hweekly : r.frequency = .weekly) : r.Passing c day (r.nextPeriod c filtered) := by
  have hdated := hstands.placed.dated hplain.fine
  have hstart := hdated.day.1
  have hweekday := hstands.placed.week hweekly
  have hinterval := hplain.interval
  have hweek := hplain.week
  obtain ⟨hlow, hhigh, hday⟩ := hstands.week hweekly
  obtain ⟨back, hback⟩ : ∃ back : Int, (if r.weekStart > c.weekday then
    (c.weekday : Int) + 1 + (6 - r.weekStart) else c.weekday - r.weekStart) = back := ⟨_, rfl⟩
  have hrange : back = (c.dayNumber - r.weekStart) % 7 := by
    split at hback <;> omega
  have hnext : r.nextPeriod c filtered = Cursor.atDay { c with weekday := r.weekStart } r
      (c.day + (r.interval * 7 - back)) := by
    simp only [nextPeriod, hweekly]
    rw [hback, show c.day - back + r.interval * 7 = c.day + (r.interval * 7 - back) by omega]
  have hdated' : Cursor.Dated { c with weekday := r.weekStart } := ⟨hdated.year, hdated.month, hdated.day⟩
  have hsecond := hstands.placed.secondOfDay_mem
  unfold Passing
  rw [hweekly, Frequency.seconds]
  rcases @Cursor.Dated.moves _ _ (r.interval * 7 - back) hplain hdated' hstands.placed.frame
    (by dsimp only; omega) with ⟨frame, month, day', hsome, hnumber⟩ | ⟨hnone, hbeyond⟩
  · have hplaced := (placed_nextPeriod hplain.clocked hplain.week hplain.interval hstands.placed
      (hnext.trans hsome)).1
    have hlands : Cursor.dayNumber { c with frame := frame, month := month, day := day', weekday := r.weekStart } =
      c.dayNumber + (r.interval * 7 - back) := hnumber
    refine .inl ⟨_, day + r.interval * 7, hnext.trans hsome, ⟨hplaced, hstands.times, fun hf => ?_, fun hf => ?_,
      fun hf => absurd hweekly hf, fun _ => ?_⟩, ?_⟩
    · exact absurd (hweekly.symm.trans hf) (by decide)
    · exact absurd hf (by rw [hweekly]; decide)
    · rw [hlands]
      omega
    · change _ + c.secondOfDay = _
      omega
  · change dayCount ≤ c.dayNumber + (r.interval * 7 - back) at hbeyond
    exact .inr ⟨hnext.trans hnone, by omega⟩

/-- A plain rule of days passes to a later day. -/
theorem Rule.Stands.passing_daily {day : Int} (hplain : r.Plain) (hstands : r.Stands c day)
    (hdaily : r.frequency = .daily) : r.Passing c day (r.nextPeriod c filtered) := by
  have hdated := hstands.placed.dated hplain.fine
  have hstart := hdated.day.1
  have hinterval := hplain.interval
  have hother : r.frequency ≠ .weekly := fun hweekly => nomatch hdaily.symm.trans hweekly
  have hown := hstands.own hother
  have hnext : r.nextPeriod c filtered = c.atDay r (c.day + r.interval) := by simp only [nextPeriod, hdaily]
  have hsecond := hstands.placed.secondOfDay_mem
  unfold Passing
  rw [hdaily, Frequency.seconds]
  rcases @Cursor.Dated.moves _ _ r.interval hplain hdated hstands.placed.frame (by omega) with
    ⟨frame, month, day', hsome, hnumber⟩ | ⟨hnone, hbeyond⟩
  · have hplaced := (placed_nextPeriod hplain.clocked hplain.week hplain.interval hstands.placed
      (hnext.trans hsome)).1
    refine .inl ⟨_, day + r.interval, hnext.trans hsome, ⟨hplaced, hstands.times, hstands.minute, hstands.second,
      fun _ => ?_, fun hf => absurd hf hother⟩, ?_⟩
    · rw [hnumber, hown]
    · change _ + c.secondOfDay = _
      omega
  · exact .inr ⟨hnext.trans hnone, by omega⟩

/-- There is a step around a day. -/
theorem stepsAround_pos {interval : Int} {cycle : Nat} (hcycle : 0 < cycle) : 0 < stepsAround interval cycle := by
  unfold stepsAround
  have hdvd : Int.gcd interval cycle ∣ cycle := Int.natCast_dvd_natCast.mp (Int.gcd_dvd_right interval cycle)
  exact Nat.div_pos (Nat.le_of_dvd hcycle hdvd) (Nat.pos_of_dvd_of_pos hdvd hcycle)

/-- A plain rule of hours passes to a later hour. -/
theorem Rule.Stands.passing_hourly {day : Int} (hplain : r.Plain) (hstands : r.Stands c day)
    (hhourly : r.frequency = .hourly) : r.Passing c day (r.nextPeriod c false) := by
  have hrank : 4 ≤ r.frequency.rank := hhourly ▸ by decide
  have hinterval := hplain.interval
  have hhour := hstands.placed.hour
  obtain ⟨hcarried, hrange⟩ := @carried (c.hour + r.interval) 24 (by decide)
  refine hstands.passing_clock ((c.hour + r.interval).fdiv 24) hplain hrank ?_ hrange hstands.placed.minute
    hstands.placed.second (fun _ => rfl) (fun _ => rfl) ?_ ?_
  · omega
  · rw [hhourly, Frequency.seconds]
    unfold Cursor.secondOfDay
    omega
  · simp only [nextPeriod, hhourly, stepPart, hplain.hours hrank]
    rfl

/-- A plain rule of minutes passes to a later minute. -/
theorem Rule.Stands.passing_minutely {day : Int} (hplain : r.Plain) (hstands : r.Stands c day)
    (hminutely : r.frequency = .minutely) : r.Passing c day (r.nextPeriod c false) := by
  have hrank : 4 ≤ r.frequency.rank := hminutely ▸ by decide
  have hinterval := hplain.interval
  have hhour := hstands.placed.hour
  have hminute := hstands.placed.minute
  have hminutes := hplain.minutes hrank
  rw [if_neg (by rw [hminutely]; decide)] at hminutes
  obtain ⟨hcarried, hrange⟩ := @carried (c.minute + r.interval) 60 (by decide)
  obtain ⟨hcarried', hrange'⟩ := @carried (c.hour + (c.minute + r.interval).fdiv 60) 24 (by decide)
  obtain ⟨steps, hsteps⟩ := Nat.exists_eq_succ_of_ne_zero (@stepsAround_pos r.interval 1440 (by decide)).ne'
  refine hstands.passing_clock ((c.hour + (c.minute + r.interval).fdiv 60).fdiv 24) hplain hrank ?_ hrange' hrange
    hstands.placed.second
    (fun hf => nomatch hminutely.symm.trans hf) (fun _ => rfl) ?_ ?_
  · omega
  · rw [hminutely, Frequency.seconds]
    unfold Cursor.secondOfDay
    omega
  · simp only [nextPeriod, hminutely, hsteps, stepMinutes, stepPart, hplain.hours hrank, hminutes, Int.zero_add]
    rfl

/-- A plain rule of seconds passes to a later second. -/
theorem Rule.Stands.passing_secondly {day : Int} (hplain : r.Plain) (hstands : r.Stands c day)
    (hsecondly : r.frequency = .secondly) : r.Passing c day (r.nextPeriod c false) := by
  have hrank : 4 ≤ r.frequency.rank := hsecondly ▸ by decide
  have hinterval := hplain.interval
  have hhour := hstands.placed.hour
  have hminute := hstands.placed.minute
  have hsecond := hstands.placed.second
  have hminutes := hplain.minutes hrank
  have hseconds := hplain.seconds hrank
  rw [if_neg (by rw [hsecondly]; decide)] at hminutes
  rw [if_pos hsecondly] at hseconds
  obtain ⟨hcarried, hrange⟩ := @carried (c.second + r.interval) 60 (by decide)
  obtain ⟨hcarried', hrange'⟩ := @carried (c.minute + (c.second + r.interval).fdiv 60) 60 (by decide)
  obtain ⟨hcarried'', hrange''⟩ := @carried (c.hour + (c.minute + (c.second + r.interval).fdiv 60).fdiv 60) 24
    (by decide)
  obtain ⟨steps, hsteps⟩ := Nat.exists_eq_succ_of_ne_zero (@stepsAround_pos r.interval 86400 (by decide)).ne'
  refine hstands.passing_clock ((c.hour + (c.minute + (c.second + r.interval).fdiv 60).fdiv 60).fdiv 24) hplain
    hrank ?_ hrange'' hrange' hrange
    (fun hf => nomatch hsecondly.symm.trans hf) (fun hf => absurd hf (by rw [hsecondly]; decide)) ?_ ?_
  · omega
  · rw [hsecondly, Frequency.seconds]
    unfold Cursor.secondOfDay
    omega
  · simp only [nextPeriod, hsecondly, hsteps, stepSeconds, stepPart, hplain.hours hrank, hminutes, hseconds,
      Int.zero_add]
    rfl

/-- A plain rule passes from period to period. -/
theorem Rule.Stands.passing {day : Int} (hplain : r.Plain) (hstands : r.Stands c day)
    (hkept : r.frequency ≠ .weekly → filtered = false) : r.Passing c day (r.nextPeriod c filtered) := by
  have hfine := hplain.fine
  cases hfrequency : r.frequency
  case yearly => exact absurd hfine (hfrequency ▸ by decide)
  case monthly => exact absurd hfine (hfrequency ▸ by decide)
  case weekly => exact hstands.passing_weekly hplain hfrequency
  case daily => exact hstands.passing_daily hplain hfrequency
  all_goals rw [hkept (by rw [hfrequency]; decide)]
  case hourly => exact hstands.passing_hourly hplain hfrequency
  case minutely => exact hstands.passing_minutely hplain hfrequency
  case secondly => exact hstands.passing_secondly hplain hfrequency

/-! ## All occurrences -/

section Unfolding

variable {s s' : Series} {ws : List Wall} {halt : Option Halt} {countLeft : Option Int} {periods : Nat}

/-- Series that give the same next unfold alike. -/
theorem Series.Unfolds.of_next (h : s.Unfolds ws halt) (hnext : s'.next = s.next) : s'.Unfolds ws halt := by
  cases h with
  | finished h => exact .finished (hnext.trans h)
  | halted h => exact .halted (hnext.trans h)
  | occurrence h hrest => exact .occurrence (hnext.trans h) hrest

/-- A count allows the occurrence with a number, from zero. -/
def Counts (countLeft : Option Int) (i : Nat) : Prop := ∀ n, countLeft = some n → (i : Int) < n

instance (countLeft : Option Int) (i : Nat) : Decidable (Counts countLeft i) :=
  match countLeft with
  | none => .isTrue fun _ h => nomatch h
  | some n => decidable_of_iff ((i : Int) < n) ⟨fun h _ hn => Option.some.inj hn ▸ h, fun h => h n rfl⟩

/-- When an occurrence has been counted, those that follow move up. -/
theorem counts_succ (countLeft : Option Int) (i : Nat) :
    Counts countLeft (i + 1) ↔ Counts (countLeft.map (· - 1)) i := by
  cases countLeft with
  | none => exact ⟨fun _ _ h => (nomatch h), fun _ _ h => (nomatch h)⟩
  | some n =>
    constructor
    · rintro h m hm
      have := h n rfl
      cases hm
      dsimp only
      omega
    · rintro h m hm
      cases hm
      have := h (n - 1) rfl
      omega

/-- Of a single candidate, an occurrence is picked if it is counted. -/
theorem Rule.Plain.pick {w : Wall} (hplain : r.Plain) (hstart : r.start.wall ≤ w) (countLeft : Option Int) :
    pick r countLeft [some w] =
      if Counts countLeft 0 then .occurrence w [] (countLeft.map (· - 1)) else .finished := by
  have hcompares : r.compares w = true := by rw [Rule.compares, hplain.til, Option.all_none]
  have hgoing : r.isOver w = false := by rw [Rule.isOver, hplain.til, Option.any_none]
  unfold Recurrence.pick
  rw [hcompares, Bool.not_true, if_neg Bool.false_ne_true, hgoing, if_neg Bool.false_ne_true,
    if_neg (not_lt.mpr hstart)]
  cases countLeft with
  | none =>
    have hcounts : Counts none 0 := fun _ h => (nomatch h)
    rw [if_pos hcounts]
    rfl
  | some n =>
    by_cases hn : n ≤ 0
    · have hnot : ¬Counts (some n) 0 := fun h => by
        have := h n rfl
        omega
      rw [if_neg hnot]
      exact if_pos hn
    · have hcounts : Counts (some n) 0 := fun m hm => by
        cases hm
        omega
      rw [if_pos hcounts]
      exact if_neg hn

/-- The wall reading a number of intervals after a second, if the calendar has it. -/
def Rule.later? (r : Rule) (second : Int) (i : Nat) : Option Wall :=
  Wall.ofMicros? ((second + i * (r.interval * r.frequency.seconds)) * 1000000)

/-- The intervals of a plain rule are not negative. -/
theorem Rule.Plain.interval_nonneg (hplain : r.Plain) : 0 ≤ r.interval * r.frequency.seconds := by
  refine Int.mul_nonneg hplain.interval.le ?_
  cases r.frequency <;> decide

/-- What lies later than a second beyond the calendar lies beyond the calendar. -/
theorem Rule.Plain.later?_eq_none (hplain : r.Plain) {second : Int} (hsecond : 0 ≤ second) {i j : Nat}
    (hle : i ≤ j) (h : r.later? second i = none) : r.later? second j = none := by
  have hinterval := hplain.interval_nonneg
  have hmore := Int.mul_le_mul_of_nonneg_right (Int.ofNat_le.mpr hle) hinterval
  have hnonneg := Int.mul_nonneg (Int.natCast_nonneg i) hinterval
  unfold later? at h ⊢
  rw [Wall.ofMicros?_eq_none (by omega)] at h ⊢
  omega

/-- A plain series whose candidate has been taken goes on with the candidate of the next period, or it is over
with the calendar. -/
theorem Rule.Stands.next {day : Int} (hplain : r.Plain) (hstands : r.Stands c day)
    (hkept : r.frequency ≠ .weekly → filtered = false) (countLeft : Option Int) (periods : Nat) :
    (∃ c' day' filtered', r.Stands c' day' ∧ (r.frequency ≠ .weekly → filtered' = false) ∧
      day' * 86400 + c'.secondOfDay = day * 86400 + c.secondOfDay + r.interval * r.frequency.seconds ∧
      Series.next ⟨r, [], c, filtered, countLeft, periods + 1⟩ =
        Series.next ⟨r, [Wall.ofMicros? ((day' * 86400 + c'.secondOfDay) * 1000000)], c', filtered', countLeft,
          periods⟩) ∨
    (Series.next ⟨r, [], c, filtered, countLeft, periods + 1⟩ = .finished ∧
      r.later? (day * 86400 + c.secondOfDay) 1 = none) := by
  rcases hstands.passing hplain hkept with ⟨c', day', hperiod, hstands', htime⟩ | ⟨hperiod, hbeyond⟩
  · obtain ⟨filtered', hcandidates, hkept'⟩ := hstands'.candidates hplain
    refine .inl ⟨c', day', filtered', hstands', hkept', htime, ?_⟩
    rw [Series.next, Series.advanceFrom, Recurrence.pick]
    dsimp only
    rw [hperiod]
    dsimp only
    rw [hcandidates]
    rfl
  · refine .inr ⟨?_, ?_⟩
    · rw [Series.next, Series.advanceFrom, Recurrence.pick]
      dsimp only
      rw [hperiod]
    · unfold later?
      unfold dayCount at hbeyond
      rw [Wall.ofMicros?_eq_none (by omega)]
      unfold wallCount
      omega

/-- A plain series takes its candidate if it is counted. -/
theorem Rule.Plain.next_due {w : Wall} (hplain : r.Plain) (hstart : r.start.wall ≤ w) (c : Cursor)
    (filtered : Bool) (countLeft : Option Int) (periods : Nat) :
    Series.next ⟨r, [some w], c, filtered, countLeft, periods⟩ =
      if Counts countLeft 0 then .occurrence w ⟨r, [], c, filtered, countLeft.map (· - 1), periods⟩
      else .finished := by
  cases periods with
  | zero =>
    rw [Series.next, Series.advanceFrom, hplain.pick hstart]
    by_cases hcounts : Counts countLeft 0
    · rw [if_pos hcounts, if_pos hcounts]
    · rw [if_neg hcounts, if_neg hcounts]
  | succ periods =>
    rw [Series.next, Series.advanceFrom, hplain.pick hstart]
    by_cases hcounts : Counts countLeft 0
    · rw [if_pos hcounts, if_pos hcounts]
    · rw [if_neg hcounts, if_neg hcounts]

/-- A series with a candidate beyond the calendar halts. -/
theorem next_beyond (r : Rule) (c : Cursor) (filtered : Bool) (countLeft : Option Int) (periods : Nat) :
    Series.next ⟨r, [none], c, filtered, countLeft, periods⟩ = .halt .unusable := by
  cases periods <;> rfl

/-- No interval later than a second is the second. -/
theorem Rule.later?_zero (r : Rule) (second : Int) : r.later? second 0 = Wall.ofMicros? (second * 1000000) := by
  rw [later?, Int.natCast_zero, Int.zero_mul, Int.add_zero]

/-- What lies an interval later is one interval nearer. -/
theorem Rule.later?_succ (r : Rule) (second : Int) (i : Nat) :
    r.later? second (i + 1) = r.later? (second + r.interval * r.frequency.seconds) i := by
  have hmore : ((i + 1 : Nat) : Int) * (r.interval * r.frequency.seconds) =
      i * (r.interval * r.frequency.seconds) + r.interval * r.frequency.seconds := by
    rw [Int.natCast_succ, Int.add_mul, Int.one_mul]
  unfold later?
  rw [hmore]
  congr 1
  omega

/-- A plain series with a candidate has it as its first occurrence, unless it is not counted or lies beyond the
calendar. -/
theorem Rule.Plain.unfolds_due {second : Int} (hplain : r.Plain)
    (hstart : (r.start.wall.val : Int) ≤ second * 1000000)
    (h : Series.Unfolds ⟨r, [Wall.ofMicros? (second * 1000000)], c, filtered, countLeft, periods⟩ ws halt) :
    (ws = [] ∧ (halt = none ∨ halt = some .unusable) ∧ (¬Counts countLeft 0 ∨ r.later? second 0 = none)) ∨
      ∃ w rest, ws = w :: rest ∧ Counts countLeft 0 ∧ r.later? second 0 = some w ∧
        Series.Unfolds ⟨r, [], c, filtered, countLeft.map (· - 1), periods⟩ rest halt := by
  rw [r.later?_zero]
  cases hwall : Wall.ofMicros? (second * 1000000) with
  | none =>
    rw [hwall] at h
    cases h with
    | finished hnext => cases hnext.symm.trans (next_beyond ..)
    | halted hnext =>
      cases hnext.symm.trans (next_beyond ..)
      exact .inl ⟨rfl, .inr rfl, .inr rfl⟩
    | occurrence hnext => cases hnext.symm.trans (next_beyond ..)
  | some w =>
    have hval := Wall.ofMicros?_some hwall
    have hdue := hplain.next_due (w := w) (Fin.le_def.mpr (by omega)) c filtered countLeft periods
    rw [hwall] at h
    by_cases hcounts : Counts countLeft 0
    · rw [if_pos hcounts] at hdue
      cases h with
      | finished hnext => cases hnext.symm.trans hdue
      | halted hnext => cases hnext.symm.trans hdue
      | occurrence hnext hrest =>
        cases hnext.symm.trans hdue
        exact .inr ⟨w, _, rfl, hcounts, rfl, hrest⟩
    · rw [if_neg hcounts] at hdue
      cases h with
      | finished => exact .inl ⟨rfl, .inl rfl, .inl hcounts⟩
      | halted hnext => cases hnext.symm.trans hdue
      | occurrence hnext => cases hnext.symm.trans hdue

/-- A plain series unfolds to one occurrence after each interval, as many as are counted, until the calendar
ends. -/
theorem Rule.Plain.unfolds {day : Int} (hplain : r.Plain) (hstands : r.Stands c day)
    (hkept : r.frequency ≠ .weekly → filtered = false)
    (hstart : (r.start.wall.val : Int) ≤ (day * 86400 + c.secondOfDay) * 1000000)
    (h : Series.Unfolds ⟨r, [Wall.ofMicros? ((day * 86400 + c.secondOfDay) * 1000000)], c, filtered, countLeft,
      periods⟩ ws halt) :
    (∀ i : Nat, ws[i]? =
      if Counts countLeft i then r.later? (day * 86400 + c.secondOfDay) i else none) ∧
      (halt = none ∨ halt = some .unusable) := by
  have hinterval := hplain.interval_nonneg
  induction ws generalizing c day filtered countLeft periods with
  | nil =>
    rcases hplain.unfolds_due hstart h with ⟨-, hhalt, hover⟩ | ⟨_, _, hcons, -⟩
    · refine ⟨fun i => ?_, hhalt⟩
      rcases hover with hcount | hbeyond
      · rw [if_neg fun hi => hcount fun n hn => by have := hi n hn; omega]
        rfl
      · rw [hplain.later?_eq_none (by omega) (Nat.zero_le i) hbeyond, ite_self]
        rfl
    · cases hcons
  | cons w ws ih =>
    rcases hplain.unfolds_due hstart h with ⟨hnil, -⟩ | ⟨_, _, hcons, hcounts, hfirst, hrest⟩
    · cases hnil
    · cases hcons
      -- the first occurrence is here; those that follow are numbered from the next period on
      suffices (∀ i : Nat, ws[i]? = if Counts (countLeft.map (· - 1)) i then
          r.later? (day * 86400 + c.secondOfDay) (i + 1) else none) ∧ (halt = none ∨ halt = some .unusable) by
        refine ⟨fun i => ?_, this.2⟩
        cases i with
        | zero =>
          rw [if_pos hcounts, hfirst]
          rfl
        | succ i =>
          rw [List.getElem?_cons_succ, this.1 i]
          simp only [counts_succ]
      cases periods with
      | zero =>
        have hendless : Series.next ⟨r, [], c, filtered, countLeft.map (· - 1), 0⟩ = .endless := rfl
        cases hrest with
        | finished hnext => cases hnext.symm.trans hendless
        | halted hnext => cases hnext.symm.trans hendless
        | occurrence hnext => cases hnext.symm.trans hendless
      | succ periods =>
        rcases hstands.next hplain hkept (countLeft.map (· - 1)) periods with
          ⟨c', day', filtered', hstands', hkept', htime, hnext⟩ | ⟨hfinished, hbeyond⟩
        · have hlater := ih hstands' hkept' (by omega) (hrest.of_next hnext.symm)
          simp only [r.later?_succ, ← htime]
          exact hlater
        · cases hrest with
          | finished =>
            refine ⟨fun i => ?_, .inl rfl⟩
            rw [hplain.later?_eq_none (by omega) (Nat.le_add_left 1 i) hbeyond, ite_self]
            rfl
          | halted hnext => cases hnext.symm.trans hfinished
          | occurrence hnext => cases hnext.symm.trans hfinished

end Unfolding

end Recurrence

end Showrunner

import Mathlib.Algebra.BigOperators.Group.List.Basic
import Mathlib.Algebra.Order.Ring.Int
import Showrunner.Proofs.Outcome
import Showrunner.Proofs.Time.Calendar
import Showrunner.Recurrence.Series

/-!
# The periods of a rule

From one period to the next, a rule with a positive interval moves on in the calendar. With a negative
interval it moves back, unless it skips the rest of a day of which it keeps nothing, which moves it on by as
much. The calendar is bounded, so a rule that moves has no more periods than the calendar has seconds.
-/

namespace Showrunner

namespace Recurrence

open Calendar

variable {r : Rule} {c c' : Cursor} {frame : Frame} {filtered : Bool} {pending : List Candidate}

/-! ## What is known of a period -/

/-- A frame is that of a year of the calendar. -/
theorem Frame.of_ok {year month : Int} (h : Frame.of r year month = .ok frame) :
    1 ≤ year ∧ year ≤ 9999 ∧ (frame.year : Int) = year ∧ frame.length ≤ 366 := by
  unfold Frame.of at h
  split at h
  · cases h
  · next hyear =>
    obtain ⟨_, -, h⟩ := bind_eq_ok.mp h
    obtain ⟨_, -, h⟩ := bind_eq_ok.mp h
    obtain ⟨_, -, h⟩ := bind_eq_ok.mp h
    cases h
    refine ⟨by omega, by omega, Int.toNat_of_nonneg (by omega), ?_⟩
    dsimp only
    unfold daysInYear
    split <;> decide

/-- A position from the start is kept within a list. -/
theorem clamped_of_nonneg {length : Nat} {i : Int} (h : 0 ≤ i) : clamped length i = min i.toNat length := by
  rw [clamped, if_neg (by omega)]

/-- A position from the end is counted from the start. -/
theorem clamped_of_neg {length : Nat} {i : Int} (h : i < 0) :
    clamped length i = min (i + length).toNat length := by
  rw [clamped, if_pos h]

/-- A month that has a range is one of the year, or counts from the end of the year. -/
theorem monthRange_ok {leap : Bool} {month : Int} {first stop : Nat}
    (h : monthRange leap month = .ok (first, stop)) : -12 ≤ month ∧ month ≤ 12 ∧ stop ≤ 366 := by
  unfold monthRange at h
  have hlength : (monthStarts leap).length = 13 := by cases leap <;> rfl
  have hmost : ∀ start ∈ monthStarts leap, start ≤ 366 := by cases leap <;> decide
  simp only [hlength] at h
  split at h
  · next a b htwo =>
    cases h
    have hmem : stop ∈ [first, stop] := List.mem_cons_of_mem _ (List.mem_singleton_self _)
    rw [← htwo] at hmem
    have hcount := congrArg List.length htwo
    simp only [List.length_take, List.length_drop, hlength, List.length_cons, List.length_nil] at hcount
    refine ⟨?_, ?_, hmost stop (List.mem_of_mem_drop (List.mem_of_mem_take hmem))⟩
    · by_contra hlow
      rw [clamped_of_neg (by omega), clamped_of_neg (by omega)] at hcount
      omega
    · by_contra hhigh
      rw [clamped_of_nonneg (by omega), clamped_of_nonneg (by omega)] at hcount
      omega
  · cases h

/-- A period with a number in its year begins with a date. -/
theorem Cursor.dayOfYear_ok {i : Nat} (h : c.dayOfYear = .ok i) :
    1 ≤ c.month ∧ c.month ≤ 12 ∧ 1 ≤ c.day ∧ c.day ≤ daysInMonth c.frame.year c.month.toNat := by
  unfold dayOfYear Date.of at h
  split at h
  · cases h
  · next hrange =>
    split at h
    · next date hdate =>
      split at hdate
      · cases hdate
      · split at hdate
        · cases hdate
        · split at hdate
          · cases hdate
          · exact ⟨by omega, by omega, by omega, by omega⟩
    · cases h

/-- The days of a period are no more than those of a year. A period of a month is one that has a range, and
one of a week or less begins with a date. -/
theorem Rule.periodDays_ok {first stop : Nat} (hframe : c.frame.length ≤ 366)
    (h : r.periodDays c = .ok (first, stop)) : stop - first ≤ 366 ∧
      (r.frequency = .monthly → -12 ≤ c.month ∧ c.month ≤ 12) ∧
      (2 ≤ r.frequency.rank → ∃ i, c.dayOfYear = .ok i) := by
  unfold periodDays at h
  cases hfrequency : r.frequency <;> simp only [hfrequency] at h
  case yearly =>
    cases h
    exact ⟨by omega, nofun, fun hrank => absurd hrank (by decide)⟩
  case monthly =>
    obtain ⟨hlow, hhigh, hstop⟩ := monthRange_ok h
    exact ⟨by omega, fun _ => ⟨hlow, hhigh⟩, fun hrank => absurd hrank (by decide)⟩
  case weekly =>
    obtain ⟨_, hfirst, h⟩ := bind_eq_ok.mp h
    cases h
    have hweek : daysToWeekStart (c.frame.weekday first) r.weekStart ≤ 7 := Nat.sub_le _ _
    exact ⟨by omega, nofun, fun _ => ⟨first, hfirst⟩⟩
  all_goals
    obtain ⟨_, hfirst, h⟩ := bind_eq_ok.mp h
    cases h
    exact ⟨by omega, nofun, fun _ => ⟨first, hfirst⟩⟩

/-- A rule that keeps every day, since none of its parts names any. -/
structure Rule.NamesNoDays (r : Rule) : Prop where
  months : r.months = []
  weeks : r.weeks = []
  weekdays : r.weekdays = []
  nthWeekdays : r.nthWeekdays = []
  easterDays : r.easterDays = []
  monthDays : r.monthDays = []
  yearDays : r.yearDays = []

/-- A rule that names no days keeps each of them. -/
theorem Rule.NamesNoDays.keeps (h : r.NamesNoDays) (frame : Frame) (i : Nat) : frame.keeps r i = true := by
  simp [Frame.keeps, h.months, h.weeks, h.weekdays, h.nthWeekdays, h.easterDays, h.monthDays, h.yearDays]

/-- A wall reading that is inserted adds one at most. -/
theorem length_insertWall_le (w : Wall) (walls : List Wall) : (insertWall w walls).length ≤ walls.length + 1 := by
  induction walls with
  | nil => exact Nat.le_refl 1
  | cons v rest ih =>
    rw [insertWall]
    split
    · exact Nat.le_succ _
    · split
      · exact Nat.le_refl _
      · exact Nat.succ_le_succ ih

/-- Wall readings that are inserted one after the other are no more than they are. -/
theorem length_insertWalls_le (inserted walls : List Wall) :
    (inserted.foldl (fun acc w => insertWall w acc) walls).length ≤ inserted.length + walls.length := by
  induction inserted generalizing walls with
  | nil => exact Nat.le_of_eq (Nat.zero_add _).symm
  | cons w rest ih =>
    have hrest := ih (insertWall w walls)
    have hinsert := length_insertWall_le w walls
    rw [List.foldl_cons, List.length_cons]
    omega

/-- The candidates at the positions of a rule are no more than the positions. -/
theorem Rule.length_positioned_le (r : Rule) (frame : Frame) (days times : List Nat) :
    (r.positioned frame days times).length ≤ r.positions.length := by
  have hchosen : ∀ choose : Int → Option Candidate,
      (r.positions.filterMap choose).length ≤ r.positions.length := fun _ => List.length_filterMap_le _ _
  unfold positioned
  dsimp only
  split
  · next hbeyond =>
    obtain ⟨candidate, hmem, -⟩ := List.any_eq_true.mp hbeyond
    exact (List.length_pos_of_mem hmem).trans_le (hchosen _)
  · rw [List.length_map]
    exact ((length_insertWalls_le _ []).trans (List.length_filterMap_le _ _)).trans (hchosen _)

/-- The candidates of a period are no more than the days of a year and its times make, and the positions. A
rule that names no days drops none. -/
theorem Rule.candidates_ok (hframe : c.frame.length ≤ 366)
    (h : r.candidates c = .ok (pending, filtered)) :
    pending.length ≤ 366 * c.times.length + r.positions.length ∧
      (r.NamesNoDays → filtered = false) ∧
      (r.frequency = .monthly → -12 ≤ c.month ∧ c.month ≤ 12) ∧
      (2 ≤ r.frequency.rank → ∃ i, c.dayOfYear = .ok i) := by
  unfold candidates at h
  obtain ⟨⟨first, stop⟩, hdays, h⟩ := bind_eq_ok.mp h
  obtain ⟨hsize, hmonth, hdate⟩ := periodDays_ok hframe hdays
  refine ⟨?_, ?_, hmonth, hdate⟩
  · have hkept : ∀ keeps : Nat → Bool,
        (((List.range (stop - first)).map (first + ·)).filter keeps).length ≤ 366 := fun keeps =>
      (List.length_filter_le _ _).trans (by rwa [List.length_map, List.length_range])
    dsimp only at h
    split at h
    · cases h
      exact Nat.zero_le _
    · split at h
      · cases h
        rw [List.length_flatMap]
        simp only [List.length_map, List.map_const', List.sum_replicate_nat]
        exact Nat.le_add_right_of_le (Nat.mul_le_mul_right _ (hkept _))
      · cases h
        exact Nat.le_add_left_of_le (r.length_positioned_le _ _ _)
  · intro hnames
    have hall : ∀ days : List Nat, days.filter (c.frame.keeps r) = days := fun days =>
      List.filter_eq_self.mpr fun i _ => hnames.keeps c.frame i
    simp only [hall, bne_self_eq_false] at h
    split at h
    · cases h
      rfl
    · split at h <;> cases h <;> rfl

/-! ## Steps of a clock -/

/-- A number comes from another one by a positive number of intervals. -/
def Strides (interval a b : Int) : Prop := ∃ k, 1 ≤ k ∧ b = a + k * interval

namespace Strides

variable {interval a b d : Int}

/-- One interval is a stride. -/
theorem one (interval a : Int) : Strides interval a (a + interval) := ⟨1, Int.le_refl 1, by omega⟩

/-- One stride after another is a stride. -/
theorem trans (h : Strides interval a b) (h' : Strides interval b d) : Strides interval a d := by
  obtain ⟨k, hk, rfl⟩ := h
  obtain ⟨k', hk', rfl⟩ := h'
  exact ⟨k + k', by omega, by rw [Int.add_mul, Int.add_assoc]⟩

/-- A stride from elsewhere is as long. -/
theorem shift (h : Strides interval a b) (d : Int) : Strides interval (d + a) (d + b) := by
  obtain ⟨k, hk, rfl⟩ := h
  exact ⟨k, hk, by omega⟩

/-- A stride of a positive interval goes up. -/
theorem lt (h : Strides interval a b) (hinterval : 0 < interval) : a < b := by
  obtain ⟨k, hk, rfl⟩ := h
  have := Int.mul_pos (show 0 < k by omega) hinterval
  omega

/-- A stride of a negative interval goes down. -/
theorem gt (h : Strides interval a b) (hinterval : interval < 0) : b < a := by
  obtain ⟨k, hk, rfl⟩ := h
  have := Int.mul_neg_of_pos_of_neg (show 0 < k by omega) hinterval
  omega

end Strides

/-- A value is carried into turns of a cycle. -/
theorem carried (value : Int) {cycle : Int} (hcycle : 0 < cycle) :
    Int.fdiv value cycle * cycle + Int.fmod value cycle = value ∧
      0 ≤ Int.fmod value cycle ∧ Int.fmod value cycle < cycle :=
  ⟨by rw [Int.mul_comm]; exact Int.mul_fdiv_add_fmod value cycle, Int.fmod_nonneg_of_pos _ hcycle,
    Int.fmod_lt_of_pos _ hcycle⟩

/-- Steps around a cycle stride to a value of the cycle. -/
theorem stepTo_some {interval cycle turns value turns' value' : Int} {values : List Int} {steps : Nat}
    (hcycle : 0 < cycle) (h : stepTo interval cycle values turns value steps = some (turns', value')) :
    Strides interval (turns * cycle + value) (turns' * cycle + value') ∧ 0 ≤ value' ∧ value' < cycle := by
  induction steps generalizing turns value with
  | zero => cases h
  | succ steps ih =>
    obtain ⟨hcarried, hlow, hhigh⟩ := carried (value + interval) hcycle
    have hstep : Strides interval (turns * cycle + value)
        ((turns + Int.fdiv (value + interval) cycle) * cycle + Int.fmod (value + interval) cycle) := by
      have h := Strides.one interval (turns * cycle + value)
      rwa [Int.add_mul, Int.add_assoc (turns * cycle), hcarried, ← Int.add_assoc]
    rw [stepTo] at h
    split at h
    · cases h
      exact ⟨hstep, hlow, hhigh⟩
    · obtain ⟨hrest, hrange⟩ := ih h
      exact ⟨hstep.trans hrest, hrange⟩

/-- A step around a cycle, or steps to a value that is named, stride to a value of the cycle. -/
theorem stepPart_ok {interval cycle value turns value' : Int} {values : List Int}
    (hcycle : 0 < cycle) (h : stepPart interval cycle values value = .ok (turns, value')) :
    Strides interval value (turns * cycle + value') ∧ 0 ≤ value' ∧ value' < cycle := by
  unfold stepPart at h
  split at h
  · cases h
    obtain ⟨hcarried, hrange⟩ := carried (value + interval) hcycle
    exact ⟨by rw [hcarried]; exact Strides.one interval value, hrange⟩
  · split at h
    · next found hfound =>
      cases h
      have := stepTo_some hcycle hfound
      rwa [Int.zero_mul, Int.zero_add] at this
    · cases h

/-- Steps of minutes stride from a minute of a day to one of a day. -/
theorem stepMinutes_ok {days hour minute days' hour' minute' : Int} {steps : Nat}
    (h : stepMinutes r days hour minute steps = .ok (days', hour', minute')) :
    Strides r.interval ((days * 24 + hour) * 60 + minute) ((days' * 24 + hour') * 60 + minute') ∧
      (0 ≤ hour' ∧ hour' < 24) ∧ 0 ≤ minute' ∧ minute' < 60 := by
  induction steps generalizing days hour minute with
  | zero => cases h
  | succ steps ih =>
    rw [stepMinutes] at h
    obtain ⟨⟨hours, next⟩, hpart, h⟩ := bind_eq_ok.mp h
    obtain ⟨hstride, hminute⟩ := stepPart_ok (by decide) hpart
    obtain ⟨hcarried, hhour⟩ := @carried (hour + hours) 24 (by decide)
    have hstep : Strides r.interval ((days * 24 + hour) * 60 + minute)
        (((days + Int.fdiv (hour + hours) 24) * 24 + Int.fmod (hour + hours) 24) * 60 + next) := by
      convert hstride.shift ((days * 24 + hour) * 60) using 1
      omega
    dsimp only at h
    split at h
    · cases h
      exact ⟨hstep, hhour, hminute⟩
    · obtain ⟨hrest, hrange⟩ := ih h
      exact ⟨hstep.trans hrest, hrange⟩

/-- Steps of seconds stride from a second of a day to one of a day. -/
theorem stepSeconds_ok {days hour minute second days' hour' minute' second' : Int} {steps : Nat}
    (h : stepSeconds r days hour minute second steps = .ok (days', hour', minute', second')) :
    Strides r.interval (((days * 24 + hour) * 60 + minute) * 60 + second)
        (((days' * 24 + hour') * 60 + minute') * 60 + second') ∧
      (0 ≤ hour' ∧ hour' < 24) ∧ (0 ≤ minute' ∧ minute' < 60) ∧ 0 ≤ second' ∧ second' < 60 := by
  induction steps generalizing days hour minute second with
  | zero => cases h
  | succ steps ih =>
    rw [stepSeconds] at h
    obtain ⟨⟨minutes, next⟩, hpart, h⟩ := bind_eq_ok.mp h
    obtain ⟨hstride, hsecond⟩ := stepPart_ok (by decide) hpart
    obtain ⟨hcarried, hminute⟩ := @carried (minute + minutes) 60 (by decide)
    obtain ⟨hcarried', hhour⟩ := @carried (hour + Int.fdiv (minute + minutes) 60) 24 (by decide)
    have hstep : Strides r.interval (((days * 24 + hour) * 60 + minute) * 60 + second)
        ((((days + Int.fdiv (hour + Int.fdiv (minute + minutes) 60) 24) * 24 +
          Int.fmod (hour + Int.fdiv (minute + minutes) 60) 24) * 60 +
          Int.fmod (minute + minutes) 60) * 60 + next) := by
      convert hstride.shift (((days * 24 + hour) * 60 + minute) * 60) using 1
      omega
    dsimp only at h
    split at h
    · cases h
      exact ⟨hstep, hhour, hminute, hsecond⟩
    · obtain ⟨hrest, hrange⟩ := ih h
      exact ⟨hstep.trans hrest, hrange⟩

/-- A distance in whole intervals is one that a positive interval takes forward. -/
theorem wholeIntervals_ok {distance interval whole : Int}
    (h : wholeIntervals distance interval = .ok whole) :
    ∃ k, whole = k * interval ∧ (0 ≤ distance → 0 < interval → 0 ≤ k) := by
  unfold wholeIntervals at h
  split at h
  · cases h
  · cases h
    exact ⟨_, rfl, fun hdistance hinterval => Int.fdiv_nonneg hdistance hinterval.le⟩

/-! ## Days that are carried -/

/-- A day that is carried beyond its month is carried to a later one. -/
theorem carryDay_some {year month year' month' months : Nat} {day day' : Int} (hmonth : month ≤ 12)
    (h : carryDay year month day months = some (year', month', day')) :
    (year' = year ∧ month' = month ∧ day' = day) ∨
      daysInMonth year month < day ∧ year * 12 + month < year' * 12 + month' := by
  induction months generalizing year month day with
  | zero => cases h
  | succ months ih =>
    rw [carryDay] at h
    split at h
    · cases h
      exact .inl ⟨rfl, rfl, rfl⟩
    · next hbeyond =>
      refine .inr ⟨by omega, ?_⟩
      split at h
      · rcases ih (by omega) h with ⟨rfl, rfl, -⟩ | ⟨-, hlt⟩ <;> omega
      · split at h
        · rcases ih (by omega) h with ⟨rfl, rfl, -⟩ | ⟨-, hlt⟩ <;> omega
        · cases h

/-- A cursor stays in its month, or it moves to a later one, if its day lies beyond the month. -/
theorem Cursor.atDay_some {day : Int} (hmonth : 1 ≤ c.month ∧ c.month ≤ 12)
    (h : c.atDay r day = .ok (some c')) :
    ∃ frame month day', c' = { c with frame := frame, month := month, day := day' } ∧
      ((frame = c.frame ∧ month = c.month ∧ day' = day) ∨
        (∃ year month, Frame.of r year month = .ok frame) ∧
          daysInMonth c.frame.year c.month.toNat < day ∧
          c.frame.year * 12 + c.month < frame.year * 12 + month) := by
  unfold atDay at h
  split at h
  · cases h
    exact ⟨c.frame, c.month, day, rfl, .inl ⟨rfl, rfl, rfl⟩⟩
  · split at h
    · cases h
    · next year month day' hcarry =>
      have hmonth' : (c.month.toNat : Int) = c.month := Int.toNat_of_nonneg (by omega)
      split at h
      · next hsame =>
        cases h
        rcases carryDay_some (by omega) hcarry with ⟨-, -, rfl⟩ | ⟨-, hlater⟩
        · exact ⟨c.frame, c.month, day', rfl, .inl ⟨rfl, rfl, rfl⟩⟩
        · omega
      · next hother =>
        obtain ⟨frame, hframe, h⟩ := bind_eq_ok.mp h
        cases h
        obtain ⟨-, -, hyear, -⟩ := Frame.of_ok hframe
        rcases carryDay_some (by omega) hcarry with ⟨rfl, rfl, -⟩ | ⟨hbeyond, hlater⟩
        · omega
        · exact ⟨frame, month, day', rfl, .inr ⟨⟨year, month, hframe⟩, hbeyond, by omega⟩⟩

/-! ## Sound periods -/

/-- The second of its day at which a period stands. -/
def Cursor.secondOfDay (c : Cursor) : Int := (c.hour * 60 + c.minute) * 60 + c.second

/-- The frame of a period is one of the calendar, its time one of a day, its weekday no more than a week after
the start of a week, and its times are as many as there can be. -/
structure Cursor.Sound (r : Rule) (c : Cursor) : Prop where
  frame : ∃ year month, Frame.of r year month = .ok c.frame
  hour : 0 ≤ c.hour ∧ c.hour < 24
  minute : 0 ≤ c.minute ∧ c.minute < 60
  second : 0 ≤ c.second ∧ c.second < 60
  weekday : c.weekday ≤ r.weekStart + 6
  times : c.times.length ≤ r.mostTimes

/-- The second of a day lies in the day. -/
theorem Cursor.Sound.secondOfDay_mem (h : c.Sound r) : 0 ≤ c.secondOfDay ∧ c.secondOfDay < 86400 := by
  have hclock := And.intro h.hour (And.intro h.minute h.second)
  unfold Cursor.secondOfDay
  omega

/-- A sound period that is moved to another date of the calendar is sound. -/
theorem Cursor.Sound.withDate (h : c.Sound r) (hframe : ∃ year month, Frame.of r year month = .ok frame)
    (month day : Int) : Cursor.Sound r { c with frame := frame, month := month, day := day } :=
  ⟨hframe, h.hour, h.minute, h.second, h.weekday, h.times⟩

/-- The frame of a sound period has no more days than a long year. -/
theorem Cursor.Sound.frame_length_le (h : c.Sound r) : c.frame.length ≤ 366 := by
  obtain ⟨year, month, hframe⟩ := h.frame
  exact (Frame.of_ok hframe).2.2.2

/-- A sound period of a week or less that has candidates begins with a date. -/
theorem Cursor.Sound.date (h : c.Sound r) (hfine : 2 ≤ r.frequency.rank)
    (hcandidates : r.candidates c = .ok (pending, filtered)) :
    1 ≤ c.month ∧ c.month ≤ 12 ∧ 1 ≤ c.day ∧ c.day ≤ daysInMonth c.frame.year c.month.toNat := by
  obtain ⟨-, -, -, hdate⟩ := Rule.candidates_ok h.frame_length_le hcandidates
  obtain ⟨i, hi⟩ := hdate hfine
  exact Cursor.dayOfYear_ok hi

/-- The results of a chain of steps over a list are as many as the items, counted by what each step gives. -/
theorem sum_mapM {α β : Type} {f : α → Except Halt β} {count : β → Nat} {n : Nat}
    (hf : ∀ a b, f a = .ok b → count b = n) {items : List α} {results : List β}
    (h : items.mapM f = .ok results) : (results.map count).sum = items.length * n := by
  induction items generalizing results with
  | nil =>
    cases h
    exact (Nat.zero_mul n).symm
  | cons a rest ih =>
    rw [List.mapM_cons] at h
    obtain ⟨b, hb, h⟩ := bind_eq_ok.mp h
    obtain ⟨rests, hrests, h⟩ := bind_eq_ok.mp h
    cases h
    rw [List.map_cons, List.sum_cons, hf a b hb, ih hrests, List.length_cons, Nat.succ_mul, Nat.add_comm]

/-- The times of day that parts combine to are the product of what the parts name. -/
theorem length_timesOfDay {hours minutes seconds : List Int} {times : List Nat}
    (h : timesOfDay hours minutes seconds = .ok times) :
    times.length = hours.length * (minutes.length * seconds.length) := by
  unfold timesOfDay at h
  obtain ⟨found, hfound, h⟩ := bind_eq_ok.mp h
  cases h
  have hsum : (found.map fun ofHour => (ofHour.map List.length).sum).sum =
      hours.length * (minutes.length * seconds.length) := by
    refine sum_mapM (fun hour ofHour hofHour => ?_) hfound
    refine sum_mapM (fun minute ofMinute hofMinute => ?_) hofHour
    have := @sum_mapM _ _ _ (fun _ => 1) 1 (fun _ _ _ => rfl) _ _ hofMinute
    simpa using this
  rw [List.length_mergeSort, List.length_flatten, ← hsum, List.map_flatten, List.sum_flatten, List.map_map]
  rfl

/-- The times of a period within a day are as many as there can be. -/
theorem Rule.length_periodTimes {hour minute second : Int} {times : List Nat}
    (hrank : 4 ≤ r.frequency.rank) (h : r.periodTimes hour minute second = .ok times) :
    times.length ≤ r.mostTimes := by
  unfold periodTimes at h
  unfold mostTimes
  cases hfrequency : r.frequency <;> simp only [hfrequency] at h hrank ⊢
  case hourly => simp [length_timesOfDay h]
  case minutely => simp [length_timesOfDay h]
  case secondly => simp [length_timesOfDay h]
  all_goals exact absurd hrank (by decide)

/-- The times of a day are those of the rule, if its periods are days or more. -/
theorem Rule.mostTimes_of_days (hrank : r.frequency.rank < 4) : r.mostTimes = r.dayTimes.length := by
  unfold mostTimes
  cases hfrequency : r.frequency <;> simp only [hfrequency] at hrank ⊢
  all_goals exact absurd hrank (by decide)

/-- The first period of a rule is sound. -/
theorem Rule.sound_opening (h : r.opening = .ok c) : c.Sound r := by
  have hclock : r.start.wall.clock.hour < 24 ∧ r.start.wall.clock.minute < 60 ∧
      r.start.wall.clock.second < 60 := by
    unfold Wall.clock Clock.ofMicros microsPerDay microsPerSecond
    dsimp only
    omega
  have hweekday : Calendar.weekday r.start.wall.day < 7 := Nat.mod_lt _ (by decide)
  unfold opening at h
  obtain ⟨frame, hframe, h⟩ := bind_eq_ok.mp h
  have hsound : ∀ times : List Nat, times.length ≤ r.mostTimes → Cursor.Sound r
      ⟨frame, r.start.wall.date.month, r.start.wall.date.day, r.start.wall.clock.hour,
        r.start.wall.clock.minute, r.start.wall.clock.second, Calendar.weekday r.start.wall.day, times⟩ :=
    fun times htimes => ⟨⟨_, _, hframe⟩, by dsimp only; omega, by dsimp only; omega, by dsimp only; omega,
      by dsimp only; omega, htimes⟩
  dsimp only at h
  split at h
  · next hrank =>
    cases h
    exact hsound _ (mostTimes_of_days hrank).ge
  · next hrank =>
    split at h
    · cases h
      exact hsound _ (Nat.zero_le _)
    · obtain ⟨times, htimes, h⟩ := bind_eq_ok.mp h
      cases h
      exact hsound _ (length_periodTimes (Nat.le_of_not_lt hrank) htimes)

/-! ## What leads to the next period -/

/-- The period after a year is in the next year of the interval. -/
theorem Rule.nextPeriod_yearly (hfrequency : r.frequency = .yearly)
    (h : r.nextPeriod c filtered = .ok (some c')) :
    ∃ frame, Frame.of r (c.frame.year + r.interval) c.month = .ok frame ∧
      c' = { c with frame := frame } := by
  simp only [nextPeriod, hfrequency] at h
  split at h
  · cases h
  · obtain ⟨frame, hframe, h⟩ := bind_eq_ok.mp h
    cases h
    exact ⟨frame, hframe, rfl⟩

/-- The period after a month is in the next month of the interval. -/
theorem Rule.nextPeriod_monthly (hfrequency : r.frequency = .monthly)
    (h : r.nextPeriod c filtered = .ok (some c')) :
    ∃ year month frame, year * 12 + month = c.frame.year * 12 + c.month + r.interval ∧
      (1 ≤ c.month + r.interval → 1 ≤ month ∧ month ≤ 12) ∧
      Frame.of r year month = .ok frame ∧ c' = { c with frame := frame, month := month } := by
  obtain ⟨⟨years, month⟩, hcarried⟩ : ∃ carried : Int × Int,
      (if c.month + r.interval > 12 then
        if (c.month + r.interval) % 12 = 0 then ((c.month + r.interval) / 12 - 1, 12)
        else ((c.month + r.interval) / 12, (c.month + r.interval) % 12)
      else (0, c.month + r.interval)) = carried := ⟨_, rfl⟩
  have hmonths : years * 12 + month = c.month + r.interval ∧
      (1 ≤ c.month + r.interval → 1 ≤ month ∧ month ≤ 12) := by
    split at hcarried
    · split at hcarried <;> cases hcarried <;> omega
    · cases hcarried
      omega
  simp only [nextPeriod, hfrequency, hcarried] at h
  split at h
  · cases h
  · obtain ⟨frame, hframe, h⟩ := bind_eq_ok.mp h
    cases h
    exact ⟨_, month, frame, by omega, hmonths.2, hframe, rfl⟩

/-- A period leads to the next one by the time of the next one, on the same date, and the days that pass. -/
structure Leads (r : Rule) (c between c' : Cursor) (days : Int) : Prop where
  sound : between.Sound r
  date : between.frame = c.frame ∧ between.month = c.month ∧ between.day = c.day
  days : c' = between ∧ days = 0 ∨ between.atDay r (c.day + days) = .ok (some c')

/-- What passes from one period to the next: some time for a positive interval, and for a negative one some
time backward, unless the rest of a day is skipped. -/
def Passes (r : Rule) (filtered : Bool) (time : Int) : Prop :=
  (0 < r.interval → 0 < time) ∧ (r.interval < 0 → r.frequency.rank < 4 ∨ filtered = false → time < 0)

/-- How long the periods of a frequency are, in seconds; months and years are not of one length. -/
def Frequency.seconds : Frequency → Int
  | .weekly => 604800
  | .daily => 86400
  | .hourly => 3600
  | .minutely => 60
  | .secondly => 1
  | .yearly | .monthly => 0

/-- A period within a day leads to the next one, which has the times of its hour, minute and second, by as many
intervals: one or more, unless the rest of a day is skipped backward. -/
structure Ticks (r : Rule) (filtered : Bool) (c between c' : Cursor) (days : Int) : Prop where
  leads : Leads r c between c' days
  weekday : between.weekday = c.weekday
  times : r.periodTimes between.hour between.minute between.second = .ok between.times
  intervals : ∃ k, days * 86400 + between.secondOfDay =
    c.secondOfDay + k * (r.interval * r.frequency.seconds) ∧ (0 < r.interval ∨ filtered = false → 1 ≤ k)

/-- Intervals pass. -/
theorem Ticks.passes {between : Cursor} {days : Int} (hrank : 4 ≤ r.frequency.rank)
    (h : Ticks r filtered c between c' days) :
    Passes r filtered (days * 86400 + between.secondOfDay - c.secondOfDay) := by
  obtain ⟨k, htime, hk⟩ := h.intervals
  have hunit : 0 < r.frequency.seconds := by
    cases hfrequency : r.frequency <;> simp only [hfrequency] at hrank
    all_goals first
      | decide
      | exact absurd hrank (by decide)
  rw [htime, show c.secondOfDay + k * (r.interval * r.frequency.seconds) - c.secondOfDay =
    k * (r.interval * r.frequency.seconds) by omega]
  refine ⟨fun hinterval => ?_, fun hinterval hkept => ?_⟩
  · have hpositive := hk (.inl hinterval)
    exact Int.mul_pos (by omega) (Int.mul_pos hinterval hunit)
  · have hpositive := hk (.inr (hkept.resolve_left (by omega)))
    exact Int.mul_neg_of_pos_of_neg (by omega) (Int.mul_neg_of_neg_of_pos hinterval hunit)

/-- What is skipped of a day is a number of intervals: none of a day that is kept, and none backward if the
interval is positive. -/
def Skips (r : Rule) (filtered : Bool) (time : Int) : Prop :=
  ∃ k, time = k * r.interval ∧ (filtered = false → k = 0) ∧ (0 < r.interval → 0 ≤ k)

/-- Nothing is skipped of a day that is kept. -/
theorem skips_nothing : Skips r filtered 0 :=
  ⟨0, (Int.zero_mul _).symm, fun _ => rfl, fun _ => Int.le_refl 0⟩

/-- Whole intervals within the rest of a day are skipped. -/
theorem skips_wholeIntervals {distance whole : Int} (hfiltered : filtered = true) (hdistance : 0 ≤ distance)
    (h : wholeIntervals distance r.interval = .ok whole) : Skips r filtered whole := by
  obtain ⟨k, rfl, hk⟩ := wholeIntervals_ok h
  exact ⟨k, rfl, fun hkept => absurd (hfiltered.symm.trans hkept) (by decide), hk hdistance⟩

/-- A stride after what is skipped of a day is a number of intervals. -/
theorem Skips.strides {a b skipped : Int} (hskips : Skips r filtered skipped)
    (h : Strides r.interval (a + skipped) b) :
    ∃ k, b = a + k * r.interval ∧ (0 < r.interval ∨ filtered = false → 1 ≤ k) := by
  obtain ⟨k, rfl, hkept, hforward⟩ := hskips
  obtain ⟨k', hk', rfl⟩ := h
  refine ⟨k + k', by rw [Int.add_mul, Int.add_assoc], ?_⟩
  rintro (hinterval | hfiltered)
  · have := hforward hinterval
    omega
  · have := hkept hfiltered
    omega

/-- A period within a day leads to the next one by its time and the days that pass. -/
theorem leads_afterDays {days hour minute second : Int} {times : List Nat} (hrank : 4 ≤ r.frequency.rank)
    (hsound : c.Sound r) (hhour : 0 ≤ hour ∧ hour < 24) (hminute : 0 ≤ minute ∧ minute < 60)
    (hsecond : 0 ≤ second ∧ second < 60) (htimes : r.periodTimes hour minute second = .ok times)
    (h : { c with hour := hour, minute := minute, second := second, times := times }.afterDays r days =
      .ok (some c')) :
    Leads r c { c with hour := hour, minute := minute, second := second, times := times } c' days := by
  refine ⟨⟨hsound.frame, hhour, hminute, hsecond, hsound.weekday, r.length_periodTimes hrank htimes⟩,
    ⟨rfl, rfl, rfl⟩, ?_⟩
  unfold Cursor.afterDays at h
  split at h
  · next hzero =>
    cases h
    exact .inl ⟨rfl, hzero⟩
  · exact .inr h

/-- A period of an hour leads to the next hour of the interval behind what is skipped. -/
theorem ticks_hourly {skipped : Int} (hfrequency : r.frequency = .hourly) (hsound : c.Sound r)
    (hskips : Skips r filtered skipped)
    (h : (do
      let (days, hour) ← stepPart r.interval 24 r.hours (c.hour + skipped)
      let times ← r.periodTimes hour c.minute c.second
      { c with hour := hour, times := times }.afterDays r days) = .ok (some c')) :
    ∃ between days, Ticks r filtered c between c' days := by
  obtain ⟨⟨days, hour⟩, hpart, h⟩ := bind_eq_ok.mp h
  obtain ⟨times, htimes, h⟩ := bind_eq_ok.mp h
  obtain ⟨hstrides, hhour⟩ := stepPart_ok (by decide) hpart
  obtain ⟨k, hsteps, hk⟩ := hskips.strides hstrides
  have hleads := leads_afterDays (hfrequency ▸ by decide) hsound hhour hsound.minute hsound.second htimes h
  refine ⟨_, days, hleads, rfl, htimes, k, ?_, hk⟩
  rw [hfrequency, Frequency.seconds, ← Int.mul_assoc]
  unfold Cursor.secondOfDay
  dsimp only
  omega

/-- A period of a minute leads to the next minute of the interval behind what is skipped. -/
theorem ticks_minutely {skipped : Int} {steps : Nat} (hfrequency : r.frequency = .minutely)
    (hsound : c.Sound r) (hskips : Skips r filtered skipped)
    (h : (do
      let (days, hour, minute) ← stepMinutes r 0 c.hour (c.minute + skipped) steps
      let times ← r.periodTimes hour minute c.second
      { c with hour := hour, minute := minute, times := times }.afterDays r days) = .ok (some c')) :
    ∃ between days, Ticks r filtered c between c' days := by
  obtain ⟨⟨days, hour, minute⟩, hpart, h⟩ := bind_eq_ok.mp h
  obtain ⟨times, htimes, h⟩ := bind_eq_ok.mp h
  obtain ⟨hstrides, hhour, hminute⟩ := stepMinutes_ok hpart
  rw [← Int.add_assoc] at hstrides
  obtain ⟨k, hsteps, hk⟩ := hskips.strides hstrides
  have hleads := leads_afterDays (hfrequency ▸ by decide) hsound hhour hminute hsound.second htimes h
  refine ⟨_, days, hleads, rfl, htimes, k, ?_, hk⟩
  rw [hfrequency, Frequency.seconds, ← Int.mul_assoc]
  unfold Cursor.secondOfDay
  dsimp only
  omega

/-- A period of a second leads to the next second of the interval behind what is skipped. -/
theorem ticks_secondly {skipped : Int} {steps : Nat} (hfrequency : r.frequency = .secondly)
    (hsound : c.Sound r) (hskips : Skips r filtered skipped)
    (h : (do
      let (days, hour, minute, second) ← stepSeconds r 0 c.hour c.minute (c.second + skipped) steps
      let times ← r.periodTimes hour minute second
      { c with hour := hour, minute := minute, second := second, times := times }.afterDays r days) =
        .ok (some c')) :
    ∃ between days, Ticks r filtered c between c' days := by
  obtain ⟨⟨days, hour, minute, second⟩, hpart, h⟩ := bind_eq_ok.mp h
  obtain ⟨times, htimes, h⟩ := bind_eq_ok.mp h
  obtain ⟨hstrides, hhour, hminute, hsecond⟩ := stepSeconds_ok hpart
  rw [← Int.add_assoc] at hstrides
  obtain ⟨k, hsteps, hk⟩ := hskips.strides hstrides
  have hleads := leads_afterDays (hfrequency ▸ by decide) hsound hhour hminute hsecond htimes h
  refine ⟨_, days, hleads, rfl, htimes, k, ?_, hk⟩
  rw [hfrequency, Frequency.seconds, Int.mul_one]
  unfold Cursor.secondOfDay
  dsimp only
  omega

/-- A period within a day leads to the next one by intervals. -/
theorem Rule.ticks_nextPeriod (hrank : 4 ≤ r.frequency.rank) (hsound : c.Sound r)
    (h : r.nextPeriod c filtered = .ok (some c')) : ∃ between days, Ticks r filtered c between c' days := by
  have hclock := And.intro hsound.hour (And.intro hsound.minute hsound.second)
  cases hfrequency : r.frequency <;> simp only [nextPeriod, hfrequency] at h hrank
  case hourly =>
    split at h
    · next hfiltered =>
      obtain ⟨whole, hwhole, h⟩ := bind_eq_ok.mp h
      exact ticks_hourly hfrequency hsound (skips_wholeIntervals hfiltered (by omega) hwhole) h
    · exact ticks_hourly hfrequency hsound skips_nothing (by rw [Int.add_zero]; exact h)
  case minutely =>
    split at h
    · next hfiltered =>
      obtain ⟨whole, hwhole, h⟩ := bind_eq_ok.mp h
      exact ticks_minutely hfrequency hsound (skips_wholeIntervals hfiltered (by omega) hwhole) h
    · exact ticks_minutely hfrequency hsound skips_nothing (by rw [Int.add_zero]; exact h)
  case secondly =>
    split at h
    · next hfiltered =>
      obtain ⟨whole, hwhole, h⟩ := bind_eq_ok.mp h
      exact ticks_secondly hfrequency hsound (skips_wholeIntervals hfiltered (by omega) hwhole) h
    · exact ticks_secondly hfrequency hsound skips_nothing (by rw [Int.add_zero]; exact h)
  all_goals exact absurd hrank (by decide)

/-- A period of a week leads to the week of the interval, which begins on the first day of a week. -/
theorem Rule.leads_weekly (hweek : r.weekStart < 7) (hfrequency : r.frequency = .weekly)
    (hsound : c.Sound r) (h : r.nextPeriod c filtered = .ok (some c')) :
    ∃ back : Int, (0 ≤ back ∧ back ≤ 6) ∧ back = ((c.weekday : Int) - r.weekStart) % 7 ∧
      Leads r c { c with weekday := r.weekStart } c' (r.interval * 7 - back) := by
  obtain ⟨back, hback⟩ : ∃ back : Int, (if r.weekStart > c.weekday then
    (c.weekday : Int) + 1 + (6 - r.weekStart) else c.weekday - r.weekStart) = back := ⟨_, rfl⟩
  have hweekday := hsound.weekday
  have hrange : (0 ≤ back ∧ back ≤ 6) ∧ back = ((c.weekday : Int) - r.weekStart) % 7 := by
    split at hback <;> omega
  simp only [nextPeriod, hfrequency] at h
  rw [hback, show c.day - back + r.interval * 7 = c.day + (r.interval * 7 - back) by omega] at h
  exact ⟨back, hrange.1, hrange.2, ⟨hsound.frame, hsound.hour, hsound.minute, hsound.second,
    Nat.le_add_right _ _, hsound.times⟩, ⟨rfl, rfl, rfl⟩, .inr h⟩

/-- A period of a week or less leads to the next one by the time that passes. -/
theorem Rule.leads_nextPeriod (hweek : r.weekStart < 7) (hfine : 2 ≤ r.frequency.rank) (hsound : c.Sound r)
    (h : r.nextPeriod c filtered = .ok (some c')) :
    ∃ between days, Leads r c between c' days ∧
      Passes r filtered (days * 86400 + between.secondOfDay - c.secondOfDay) := by
  by_cases hrank : 4 ≤ r.frequency.rank
  · obtain ⟨between, days, hticks⟩ := ticks_nextPeriod hrank hsound h
    exact ⟨between, days, hticks.leads, hticks.passes hrank⟩
  · cases hfrequency : r.frequency <;> simp only [hfrequency] at hfine hrank
    case weekly =>
      obtain ⟨back, hrange, -, hleads⟩ := leads_weekly hweek hfrequency hsound h
      refine ⟨_, _, hleads, ?_⟩
      unfold Cursor.secondOfDay
      exact ⟨fun hinterval => by dsimp only; omega, fun hinterval _ => by dsimp only; omega⟩
    case daily =>
      simp only [nextPeriod, hfrequency] at h
      refine ⟨c, r.interval, ⟨hsound, ⟨rfl, rfl, rfl⟩, .inr h⟩, ?_⟩
      exact ⟨fun hinterval => by omega, fun hinterval _ => by omega⟩
    case yearly => exact absurd hfine (by decide)
    case monthly => exact absurd hfine (by decide)
    all_goals exact absurd (by decide) hrank

/-! ## Where a period lies -/

/-- How far a period lies behind the beginning of the calendar: its year, its month, or its second, of months
of 31 days. -/
def Rule.place (r : Rule) (c : Cursor) : Int :=
  match r.frequency with
  | .yearly => c.frame.year
  | .monthly => c.frame.year * 12 + c.month
  | _ => ((c.frame.year * 12 + c.month) * 31 + c.day) * 86400 + c.secondOfDay

/-- How far a period may move back: to the beginning of the calendar by years or months, or else to that of
its month. -/
def Rule.room (r : Rule) (c : Cursor) : Int :=
  match r.frequency with
  | .yearly => c.frame.year
  | .monthly => c.frame.year * 12 + c.month
  | _ => c.day * 86400 + c.secondOfDay

/-- The place of a period of a week or less is a second, and it may move back within its month. -/
theorem Rule.place_of_fine (hfine : 2 ≤ r.frequency.rank) :
    r.place c = (c.frame.year * 12 + c.month) * (31 * 86400) + r.room c ∧
      r.room c = c.day * 86400 + c.secondOfDay := by
  unfold place room
  cases hfrequency : r.frequency <;> simp only [hfrequency] at hfine ⊢
  case yearly => exact absurd hfine (by decide)
  case monthly => exact absurd hfine (by decide)
  all_goals exact ⟨by omega, trivial⟩

/-- A period that has candidates lies in the calendar. -/
theorem Rule.place_mem (hsound : c.Sound r) (h : r.candidates c = .ok (pending, filtered)) :
    (0 ≤ r.place c ∧ r.place c < (lastYear + 2) * (12 * 31 * 86400)) ∧
      0 ≤ r.room c ∧ r.room c < 32 * 86400 := by
  obtain ⟨year, month, hframe⟩ := hsound.frame
  obtain ⟨hlow, hhigh, hyear, hlength⟩ := Frame.of_ok hframe
  obtain ⟨-, -, hmonthly, -⟩ := candidates_ok hlength h
  unfold lastYear
  by_cases hfine : 2 ≤ r.frequency.rank
  · obtain ⟨hmonth, hmonth', hday, hday'⟩ := hsound.date hfine h
    have hsize := daysInMonth_le c.frame.year c.month.toNat
    have hsecond := hsound.secondOfDay_mem
    obtain ⟨hplace, hroom⟩ := @place_of_fine r c hfine
    rw [hplace, hroom]
    omega
  · unfold place room
    cases hfrequency : r.frequency <;> simp only [hfrequency] at hfine ⊢
    case yearly => omega
    case monthly =>
      have := hmonthly hfrequency
      omega
    all_goals exact absurd (by decide) hfine

/-- A rule moves if its interval is positive, or negative while nothing is skipped of a day: its periods are
days or more, or it keeps every day. -/
def Rule.Moves (r : Rule) : Prop :=
  0 < r.interval ∨ r.interval < 0 ∧ (r.frequency.rank < 4 ∨ r.NamesNoDays)

/-- The period to which one of a week or less leads is sound. It lies in the same month, or in a later one,
if its day would lie beyond the month. -/
theorem Leads.lands {between : Cursor} {days : Int} (h : Leads r c between c' days)
    (hmonth : 1 ≤ c.month ∧ c.month ≤ 12) :
    c'.Sound r ∧ c'.secondOfDay = between.secondOfDay ∧
      ((c'.frame = c.frame ∧ c'.month = c.month ∧ c'.day = c.day + days) ∨
        daysInMonth c.frame.year c.month.toNat < c.day + days ∧
          c.frame.year * 12 + c.month < c'.frame.year * 12 + c'.month) := by
  obtain ⟨hsound, ⟨hframe, hmonth', hday⟩, ⟨rfl, rfl⟩ | hat⟩ := h
  · exact ⟨hsound, rfl, .inl ⟨hframe, hmonth', by rw [hday, Int.add_zero]⟩⟩
  · rw [← hmonth'] at hmonth ⊢
    rw [← hframe]
    obtain ⟨frame, month, day, rfl, hcase⟩ := Cursor.atDay_some hmonth hat
    have hframe' : ∃ year month, Frame.of r year month = .ok frame := by
      rcases hcase with ⟨rfl, -⟩ | ⟨hof, -⟩
      · exact hsound.frame
      · exact hof
    refine ⟨hsound.withDate hframe' month day, rfl, ?_⟩
    rcases hcase with ⟨rfl, rfl, rfl⟩ | ⟨-, hlater⟩
    · exact .inl ⟨rfl, rfl, rfl⟩
    · exact .inr hlater

/-- The period after one of a week or less is sound. It lies after it if the interval is positive, and it has
less room if the rule moves with a negative interval. -/
theorem Rule.place_nextPeriod_fine {pending' : List Candidate} {filtered' : Bool} (hweek : r.weekStart < 7)
    (hfine : 2 ≤ r.frequency.rank) (hsound : c.Sound r)
    (hcandidates : r.candidates c = .ok (pending, filtered))
    (h : r.nextPeriod c filtered = .ok (some c')) (hcandidates' : r.candidates c' = .ok (pending', filtered')) :
    c'.Sound r ∧ (0 < r.interval → r.place c < r.place c') ∧
      (r.interval < 0 → r.frequency.rank < 4 ∨ r.NamesNoDays → r.room c' < r.room c) := by
  obtain ⟨-, hnames, -, -⟩ := candidates_ok hsound.frame_length_le hcandidates
  obtain ⟨hmonth, hmonth', hday, hday'⟩ := hsound.date hfine hcandidates
  have hsize := daysInMonth_le c.frame.year c.month.toNat
  obtain ⟨between, days, hleads, hforward, hback⟩ := leads_nextPeriod hweek hfine hsound h
  obtain ⟨hsound', htime, hlands⟩ := hleads.lands ⟨hmonth, hmonth'⟩
  obtain ⟨-, -, hfirst, -⟩ := hsound'.date hfine hcandidates'
  have hsecond := hsound.secondOfDay_mem
  have hsecond' := hsound'.secondOfDay_mem
  rw [← htime] at hforward hback
  -- A day beyond its month lies later than any of the month; backward, no day is beyond its month.
  obtain ⟨hplace, hroom⟩ := @place_of_fine r c hfine
  obtain ⟨hplace', hroom'⟩ := @place_of_fine r c' hfine
  refine ⟨hsound', fun hinterval => ?_, fun hinterval hkeeps => ?_⟩
  · have hpassed := hforward hinterval
    rw [hplace, hplace', hroom, hroom']
    rcases hlands with ⟨hsame, hsame', hlanded⟩ | ⟨-, hlater⟩
    · rw [hsame, hsame', hlanded]
      omega
    · omega
  · have hpassed := hback hinterval (hkeeps.imp_right hnames)
    rw [hroom, hroom']
    rcases hlands with ⟨-, -, hlanded⟩ | ⟨hbeyond, -⟩ <;> omega

/-- The period after a sound one is sound. It lies after it if the interval is positive, and it has less room
if the rule moves with a negative interval. -/
theorem Rule.place_nextPeriod {pending' : List Candidate} {filtered' : Bool} (hweek : r.weekStart < 7)
    (hsound : c.Sound r) (hcandidates : r.candidates c = .ok (pending, filtered))
    (h : r.nextPeriod c filtered = .ok (some c')) (hcandidates' : r.candidates c' = .ok (pending', filtered')) :
    c'.Sound r ∧ (0 < r.interval → r.place c < r.place c') ∧
      (r.interval < 0 → r.frequency.rank < 4 ∨ r.NamesNoDays → r.room c' < r.room c) := by
  by_cases hfine : 2 ≤ r.frequency.rank
  · exact place_nextPeriod_fine hweek hfine hsound hcandidates h hcandidates'
  · cases hfrequency : r.frequency
    case yearly =>
      obtain ⟨frame, hframe, rfl⟩ := nextPeriod_yearly hfrequency h
      obtain ⟨-, -, hyear, -⟩ := Frame.of_ok hframe
      simp only [place, room, hfrequency]
      exact ⟨hsound.withDate ⟨_, _, hframe⟩ c.month c.day, by omega, by omega⟩
    case monthly =>
      obtain ⟨year, month, frame, hmonths, -, hframe, rfl⟩ := nextPeriod_monthly hfrequency h
      obtain ⟨-, -, hyear, -⟩ := Frame.of_ok hframe
      simp only [place, room, hfrequency]
      exact ⟨hsound.withDate ⟨_, _, hframe⟩ month c.day, by omega, by omega⟩
    all_goals exact absurd (hfrequency ▸ by decide) hfine

/-- How many periods may follow a period of a rule that moves. -/
def Rule.periodsAfter (r : Rule) (c : Cursor) : Nat :=
  if r.interval > 0 then ((lastYear + 2) * (12 * 31 * 86400) - 1 - r.place c).toNat else (r.room c).toNat

/-- A period that has candidates is followed by fewer periods than there are. -/
theorem Rule.Moves.periodsAfter_lt (hmoves : r.Moves) (hsound : c.Sound r)
    (h : r.candidates c = .ok (pending, filtered)) : r.periodsAfter c < r.periodLimit := by
  obtain ⟨⟨hlow, hhigh⟩, hnone, hroom⟩ := place_mem hsound h
  unfold periodsAfter periodLimit
  rcases hmoves with hpositive | ⟨hnegative, -⟩
  · rw [if_pos hpositive, if_pos hpositive]
    omega
  · rw [if_neg (by omega), if_neg (by omega), if_pos hnegative]
    omega

/-- Fewer periods follow the next period of a rule that moves. -/
theorem Rule.Moves.periodsAfter_nextPeriod {pending' : List Candidate} {filtered' : Bool}
    (hmoves : r.Moves) (hweek : r.weekStart < 7) (hsound : c.Sound r)
    (hcandidates : r.candidates c = .ok (pending, filtered)) (h : r.nextPeriod c filtered = .ok (some c'))
    (hcandidates' : r.candidates c' = .ok (pending', filtered')) :
    c'.Sound r ∧ r.periodsAfter c' < r.periodsAfter c := by
  obtain ⟨hsound', hforward, hback⟩ := place_nextPeriod hweek hsound hcandidates h hcandidates'
  obtain ⟨⟨hlow, hhigh⟩, hnone, -⟩ := place_mem hsound' hcandidates'
  refine ⟨hsound', ?_⟩
  unfold periodsAfter
  rcases hmoves with hpositive | ⟨hnegative, hkeeps⟩
  · have hlt := hforward hpositive
    rw [if_pos hpositive, if_pos hpositive]
    omega
  · have hlt := hback hnegative hkeeps
    rw [if_neg (by omega), if_neg (by omega)]
    omega

end Recurrence

end Showrunner

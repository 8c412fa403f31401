import Showrunner.Proofs.Recurrence.Times
import Showrunner.Proofs.Time.Calendar
import Showrunner.Proofs.Time.Instant

/-!
# The spans of periods

A period of a rule spans a part of the calendar: a year, a month, a week, a day, an hour, a minute or a second.
Its candidates lie within its span, in increasing order. With a positive interval its span ends before that of
the next period begins, so the candidates of a rule come in increasing order from period to period.
-/

namespace Showrunner

namespace Recurrence

open Calendar

variable {r : Rule} {c c' : Cursor} {frame : Frame} {filtered : Bool} {pending : List Candidate}

/-! ## Days of the calendar -/

/-- A frame has the length, the first day and the first weekday of its year. -/
theorem Frame.of_year {year month : Int} (h : Frame.of r year month = .ok frame) :
    frame.length = daysInYear frame.year ∧ frame.firstDay = daysBeforeYear frame.year ∧
      frame.firstWeekday = Calendar.weekday frame.firstDay := by
  unfold Frame.of at h
  split at h
  · cases h
  · obtain ⟨_, -, h⟩ := bind_eq_ok.mp h
    obtain ⟨_, -, h⟩ := bind_eq_ok.mp h
    obtain ⟨_, -, h⟩ := bind_eq_ok.mp h
    cases h
    exact ⟨rfl, rfl, rfl⟩

/-- A year is long if it has 366 days. -/
theorem daysInYear_eq (year : Nat) : (daysInYear year == 366) = isLeap year := by
  unfold daysInYear
  cases isLeap year <;> rfl

/-- The months of two years begin alike, if both are long or neither is. -/
theorem daysBeforeMonth_congr {year year' : Nat} (h : isLeap year = isLeap year') (month : Nat) :
    daysBeforeMonth year month = daysBeforeMonth year' month := by
  have hmonths : ∀ m, daysInMonth year m = daysInMonth year' m := fun m => by
    unfold daysInMonth
    rw [h]
  unfold daysBeforeMonth
  simp only [hmonths]

/-- The range of a month goes from its first day to that of the next month. -/
theorem monthRange_eq (year : Nat) {month : Int} (hmonth : 1 ≤ month ∧ month ≤ 12) :
    monthRange (isLeap year) month =
      .ok (daysBeforeMonth year month.toNat, daysBeforeMonth year (month.toNat + 1)) := by
  have hshort : ∀ m : Fin 12, (monthRange false (m + 1 : Nat)).toOption =
      some (daysBeforeMonth 1 (m + 1), daysBeforeMonth 1 (m + 2)) := by decide
  have hlong : ∀ m : Fin 12, (monthRange true (m + 1 : Nat)).toOption =
      some (daysBeforeMonth 4 (m + 1), daysBeforeMonth 4 (m + 2)) := by decide
  obtain ⟨m, rfl⟩ : ∃ m : Fin 12, month = ((m + 1 : Nat) : Int) := ⟨⟨(month - 1).toNat, by omega⟩, by
    dsimp only
    omega⟩
  rw [Int.toNat_natCast]
  cases hleap : isLeap year with
  | false =>
    rw [@daysBeforeMonth_congr year 1 hleap, @daysBeforeMonth_congr year 1 hleap]
    exact toOption_eq_some.mp (hshort m)
  | true =>
    rw [@daysBeforeMonth_congr year 4 hleap, @daysBeforeMonth_congr year 4 hleap]
    exact toOption_eq_some.mp (hlong m)

/-- A day that is carried to the month where it lies keeps its number, and one that is carried no further lies
beyond the calendar. -/
theorem carryDay_spec {year month months : Nat} {day : Int} (hyear : 1 ≤ year ∧ year ≤ lastYear)
    (hmonth : 1 ≤ month ∧ month ≤ 12) (hday : 1 ≤ day)
    (hmonths : lastYear * 12 + 12 < year * 12 + month + months) :
    (carryDay year month day months = none ∧
      dayCount < daysBeforeYear year + daysBeforeMonth year month + day) ∨
    ∃ year' month' day', carryDay year month day months = some (year', month', day') ∧
      (1 ≤ year' ∧ year' ≤ lastYear) ∧ (1 ≤ month' ∧ month' ≤ 12) ∧
      (1 ≤ day' ∧ day' ≤ daysInMonth year' month') ∧
      daysBeforeYear year' + daysBeforeMonth year' month' + day' =
        daysBeforeYear year + daysBeforeMonth year month + day := by
  induction months generalizing year month day with
  | zero => omega
  | succ months ih =>
    have hsucc := daysBeforeMonth_succ year hmonth.1
    rw [carryDay]
    split
    · next hwithin => exact .inr ⟨year, month, day, rfl, hyear, hmonth, ⟨hday, hwithin⟩, rfl⟩
    · split
      · have hcarried := @ih year (month + 1) (day - daysInMonth year month) hyear (by omega) (by omega)
          (by omega)
        rwa [show (daysBeforeYear year + daysBeforeMonth year (month + 1) + (day - daysInMonth year month) :
          Int) = daysBeforeYear year + daysBeforeMonth year month + day by omega] at hcarried
      · -- December ends with its year
        have hend := daysBeforeMonth_thirteen year
        rw [show 13 = month + 1 by omega, hsucc] at hend
        have hnext := daysBeforeYear_succ hyear.1
        split
        · have hcarried := @ih (year + 1) 1 (day - daysInMonth year month) (by omega) (by omega) (by omega)
            (by omega)
          rwa [daysBeforeMonth_one,
            show (daysBeforeYear (year + 1) + (0 : Nat) + (day - daysInMonth year month) : Int) =
              daysBeforeYear year + daysBeforeMonth year month + day by omega] at hcarried
        · have hlast : year + 1 = lastYear + 1 := by omega
          rw [hlast, daysBeforeYear_lastYear] at hnext
          exact .inl ⟨rfl, by omega⟩

/-- The number of the day at which a period stands. -/
def Cursor.dayNumber (c : Cursor) : Int :=
  daysBeforeYear c.frame.year + daysBeforeMonth c.frame.year c.month.toNat + c.day - 1

/-- The number of the second at which a period stands. -/
def Cursor.secondNumber (c : Cursor) : Int := c.dayNumber * 86400 + c.secondOfDay

/-- A period begins with a date of the calendar. -/
structure Cursor.Dated (c : Cursor) : Prop where
  year : 1 ≤ c.frame.year ∧ c.frame.year ≤ lastYear
  month : 1 ≤ c.month ∧ c.month ≤ 12
  day : 1 ≤ c.day ∧ c.day ≤ daysInMonth c.frame.year c.month.toNat

/-- A period that begins with a date has a number in its year. -/
theorem Cursor.Dated.dayOfYear (h : c.Dated) (hfirst : c.frame.firstDay = daysBeforeYear c.frame.year) :
    ∃ i, c.dayOfYear = .ok i ∧ (c.frame.firstDay + i : Int) = c.dayNumber := by
  obtain ⟨hyear, hmonth, hday⟩ := h
  have hdate : Date.of c.frame.year c.month.toNat c.day.toNat =
      .ok ⟨c.frame.year, c.month.toNat, c.day.toNat⟩ := by
    unfold Date.of
    rw [if_neg (by omega), if_neg (by omega), if_neg (by omega)]
  refine ⟨Date.toDay ⟨c.frame.year, c.month.toNat, c.day.toNat⟩ - c.frame.firstDay, ?_, ?_⟩
  · unfold Cursor.dayOfYear
    rw [if_neg (by omega), hdate]
  · unfold Date.toDay dayNumber
    dsimp only
    omega

/-- A period moves to a later day, which has its number, or the day lies beyond the calendar; or the year and
the month of the day have no frame. -/
theorem Cursor.atDay_cases (r : Rule) {day : Int} (hframe : ∃ year month, Frame.of r year month = .ok c.frame)
    (hmonth : 1 ≤ c.month ∧ c.month ≤ 12) (hday : 1 ≤ day) :
    (∃ frame month day', c.atDay r day = .ok (some { c with frame := frame, month := month, day := day' }) ∧
      (∃ year month, Frame.of r year month = .ok frame) ∧
      Dated { c with frame := frame, month := month, day := day' } ∧
      Cursor.dayNumber { c with frame := frame, month := month, day := day' } = c.dayNumber + (day - c.day)) ∨
    (c.atDay r day = .ok none ∧ dayCount ≤ c.dayNumber + (day - c.day)) ∨
    ∃ halt year month, c.atDay r day = .error halt ∧ Frame.of r year month = .error halt ∧
      (1 ≤ year ∧ year ≤ 9999) ∧ 1 ≤ month ∧ month ≤ 12 := by
  obtain ⟨hyear, hyear'⟩ : 1 ≤ c.frame.year ∧ c.frame.year ≤ 9999 := by
    obtain ⟨_, _, hof⟩ := hframe
    have := Frame.of_ok hof
    omega
  have hmonth' : 1 ≤ c.month.toNat ∧ c.month.toNat ≤ 12 := by omega
  unfold atDay
  split
  · next hearly =>
    have hsize := daysInMonth_pos c.frame.year c.month.toNat
    refine .inl ⟨c.frame, c.month, day, rfl, hframe, ⟨⟨hyear, hyear'⟩, hmonth, hday, by dsimp only; omega⟩, ?_⟩
    unfold dayNumber
    dsimp only
    omega
  · rcases @carryDay_spec c.frame.year c.month.toNat monthCount day ⟨hyear, hyear'⟩ hmonth' hday
      (by unfold lastYear monthCount; omega) with ⟨hnone, hbeyond⟩ | ⟨year, month, day', hsome, hcarried⟩
    · rw [hnone]
      refine .inr (.inl ⟨rfl, ?_⟩)
      unfold dayNumber
      omega
    · obtain ⟨hyears, hmonths, hdays, hnumber⟩ := hcarried
      rw [hsome]
      dsimp only
      split
      · next hsame =>
        obtain ⟨rfl, hsame⟩ := hsame
        obtain rfl : month = c.month.toNat := by omega
        refine .inl ⟨c.frame, c.month, day', rfl, hframe, ⟨hyears, hmonth, hdays⟩, ?_⟩
        unfold dayNumber
        dsimp only
        omega
      · unfold lastYear at hyears
        cases hof : Frame.of r year month with
        | error halt => exact .inr (.inr ⟨halt, year, month, rfl, hof, by omega, by omega⟩)
        | ok frame =>
          obtain ⟨-, -, hsame, -⟩ := Frame.of_ok hof
          obtain rfl : frame.year = year := by omega
          refine .inl ⟨frame, month, day', rfl, ⟨_, _, hof⟩, ⟨hyears, ?_, ?_⟩, ?_⟩
          · dsimp only
            omega
          · dsimp only
            rwa [Int.toNat_natCast]
          · unfold dayNumber
            dsimp only
            rw [Int.toNat_natCast]
            omega

/-! ## Candidates in order -/

/-- A candidate comes before another one, where both are wall readings. -/
def Earlier (candidate candidate' : Candidate) : Prop := ∀ v ∈ candidate, ∀ w ∈ candidate', v < w

/-- The wall reading of a day at a time shows the day and the time. -/
theorem Frame.wallAt_some {i time : Nat} {w : Wall} (h : frame.wallAt i time = some w) :
    (w.val : Int) = ((frame.firstDay + i : Int) * 86400 + time) * 1000000 := by
  have hval := Wall.ofMicros?_some h
  simp only [microsPerDay, microsPerSecond] at hval
  omega

/-- Later days have later wall readings, and so have later times of a day. -/
theorem Frame.wallAt_lt {i i' time time' : Nat} {v w : Wall} (hv : frame.wallAt i time = some v)
    (hw : frame.wallAt i' time' = some w) (htime : time < 86400)
    (h : i < i' ∨ i = i' ∧ time < time') : v < w := by
  have hval := wallAt_some hv
  have hval' := wallAt_some hw
  have : v.val < w.val := by omega
  exact this

/-- Days and times in increasing order make candidates in order. -/
theorem Frame.pairwise_wallsAt {days times : List Nat} (hdays : days.Pairwise (· < ·))
    (htimes : times.Pairwise (· < ·)) (hclock : ∀ t ∈ times, t < 86400) :
    (days.flatMap fun day => times.map fun time => frame.wallAt day time).Pairwise Earlier := by
  rw [List.pairwise_flatMap]
  refine ⟨fun day _ => List.pairwise_map.mpr (htimes.imp_of_mem fun ht _ hlt v hv w hw => ?_),
    hdays.imp fun hlt candidate hcandidate candidate' hcandidate' v hv w hw => ?_⟩
  · exact wallAt_lt hv hw (hclock _ ht) (.inr ⟨rfl, hlt⟩)
  · obtain ⟨time, htime, rfl⟩ := List.mem_map.mp hcandidate
    obtain ⟨time', htime', rfl⟩ := List.mem_map.mp hcandidate'
    exact wallAt_lt hv hw (hclock _ htime) (.inl hlt)

/-- A wall reading that is inserted is among the others. -/
theorem mem_insertWall {v w : Wall} {walls : List Wall} (h : v ∈ insertWall w walls) : v = w ∨ v ∈ walls := by
  induction walls with
  | nil => exact .inl (List.mem_singleton.mp h)
  | cons u rest ih =>
    rw [insertWall] at h
    split at h
    · exact .inr h
    · split at h
      · exact List.mem_cons.mp h
      · rcases List.mem_cons.mp h with rfl | h
        · exact .inr List.mem_cons_self
        · exact (ih h).imp_right (List.mem_cons_of_mem _)

/-- Inserting a wall reading keeps wall readings in increasing order. -/
theorem pairwise_insertWall {w : Wall} {walls : List Wall} (h : walls.Pairwise (· < ·)) :
    (insertWall w walls).Pairwise (· < ·) := by
  induction walls with
  | nil => exact List.pairwise_singleton _ _
  | cons u rest ih =>
    obtain ⟨hfirst, hrest⟩ := List.pairwise_cons.mp h
    rw [insertWall]
    split
    · exact h
    · next hne =>
      split
      · next hlt =>
        refine List.pairwise_cons.mpr ⟨List.forall_mem_cons.mpr ⟨hlt, fun v hv => ?_⟩, h⟩
        exact Fin.lt_trans hlt (hfirst v hv)
      · next hle =>
        refine List.pairwise_cons.mpr ⟨fun v hv => ?_, ih hrest⟩
        rcases mem_insertWall hv with rfl | hv
        · exact Nat.lt_of_le_of_ne (Nat.le_of_not_lt hle) fun heq => hne (Fin.ext heq.symm)
        · exact hfirst v hv

/-- Wall readings that are inserted one after the other are in increasing order, and they are those that were
inserted. -/
theorem insertWalls_spec (inserted : List Wall) {walls : List Wall} (h : walls.Pairwise (· < ·)) :
    (inserted.foldl (fun acc w => insertWall w acc) walls).Pairwise (· < ·) ∧
      ∀ v ∈ inserted.foldl (fun acc w => insertWall w acc) walls, v ∈ inserted ∨ v ∈ walls := by
  induction inserted generalizing walls with
  | nil => exact ⟨h, fun v hv => .inr hv⟩
  | cons w rest ih =>
    obtain ⟨hsorted, hmem⟩ := ih (pairwise_insertWall (w := w) h)
    refine ⟨hsorted, fun v hv => ?_⟩
    rcases hmem v hv with hv | hv
    · exact .inl (List.mem_cons_of_mem _ hv)
    · rcases mem_insertWall hv with rfl | hv
      · exact .inl List.mem_cons_self
      · exact .inr hv

/-- An element at a position is one of the elements. -/
theorem elementAt?_mem {α : Type} {xs : List α} {i : Int} {a : α} (h : elementAt? xs i = some a) : a ∈ xs := by
  unfold elementAt? at h
  dsimp only at h
  generalize (if i < 0 then i + (xs.length : Int) else i) = j at h
  split at h
  · cases h
  · exact List.mem_of_getElem? h

/-- The candidates at the positions of a rule come in order, and each is a day at a time. -/
theorem Rule.positioned_spec (r : Rule) (frame : Frame) (days times : List Nat) :
    (r.positioned frame days times).Pairwise Earlier ∧
      ∀ w, some w ∈ r.positioned frame days times →
        ∃ day ∈ days, ∃ time ∈ times, frame.wallAt day time = some w := by
  obtain ⟨chosen, hchosen, hpositioned⟩ : ∃ chosen : List Candidate,
      (∀ candidate ∈ chosen, ∃ day ∈ days, ∃ time ∈ times, candidate = frame.wallAt day time) ∧
        r.positioned frame days times = if chosen.any Option.isNone then [none]
          else ((chosen.filterMap id).foldl (fun acc w => insertWall w acc) []).map some := by
    refine ⟨_, fun candidate hcandidate => ?_, rfl⟩
    obtain ⟨p, -, hp⟩ := List.mem_filterMap.mp hcandidate
    dsimp only at hp
    split at hp
    · next day time hday htime =>
      exact ⟨day, elementAt?_mem hday, time, elementAt?_mem htime, (Option.some.inj hp).symm⟩
    · cases hp
  rw [hpositioned]
  split
  · refine ⟨List.pairwise_singleton _ _, fun w hw => ?_⟩
    cases List.mem_singleton.mp hw
  · obtain ⟨hsorted, hmem⟩ := insertWalls_spec (chosen.filterMap id) .nil
    refine ⟨List.pairwise_map.mpr (hsorted.imp fun hlt v hv w hw => ?_), fun w hw => ?_⟩
    · cases hv
      cases hw
      exact hlt
    · obtain ⟨v, hv, heq⟩ := List.mem_map.mp hw
      cases heq
      rcases hmem w hv with hmem | hnone
      · obtain ⟨candidate, hcandidate, rfl⟩ := List.mem_filterMap.mp hmem
        obtain ⟨day, hday, time, htime, hwall⟩ := hchosen _ hcandidate
        exact ⟨day, hday, time, htime, hwall.symm⟩
      · cases hnone

/-- The candidates of a period come in order, and each is a day of the period at one of its times. -/
theorem Rule.candidates_spec (htimes : c.times.Pairwise (· < ·)) (hclock : ∀ t ∈ c.times, t < 86400)
    (h : r.candidates c = .ok (pending, filtered)) :
    pending.Pairwise Earlier ∧ ∃ first stop, r.periodDays c = .ok (first, stop) ∧
      ∀ w, some w ∈ pending → ∃ day, (first ≤ day ∧ day < stop) ∧ ∃ time ∈ c.times,
        c.frame.wallAt day time = some w := by
  obtain ⟨⟨first, stop⟩, hperiod, h⟩ := bind_eq_ok.mp h
  obtain ⟨days, hdays⟩ : ∃ days, ((List.range (stop - first)).map (first + ·)).filter (c.frame.keeps r) =
      days := ⟨_, rfl⟩
  simp only [hdays] at h
  have hsorted : days.Pairwise (· < ·) := by
    rw [← hdays]
    refine List.Pairwise.filter _ (List.pairwise_map.mpr (List.pairwise_lt_range.imp fun hlt => ?_))
    omega
  have hrange : ∀ day ∈ days, first ≤ day ∧ day < stop := by
    intro day hday
    rw [← hdays] at hday
    obtain ⟨i, hi, rfl⟩ := List.mem_map.mp (List.mem_filter.mp hday).1
    have := List.mem_range.mp hi
    omega
  suffices pending.Pairwise Earlier ∧ ∀ w, some w ∈ pending → ∃ day ∈ days, ∃ time ∈ c.times,
      c.frame.wallAt day time = some w from
    ⟨this.1, first, stop, hperiod, fun w hw => by
      obtain ⟨day, hday, htime⟩ := this.2 w hw
      exact ⟨day, hrange day hday, htime⟩⟩
  split at h
  · cases h
    exact ⟨.nil, fun _ hw => nomatch hw⟩
  · split at h
    · cases h
      refine ⟨c.frame.pairwise_wallsAt hsorted htimes hclock, fun w hw => ?_⟩
      obtain ⟨day, hday, hw⟩ := List.mem_flatMap.mp hw
      obtain ⟨time, htime, hw⟩ := List.mem_map.mp hw
      exact ⟨day, hday, time, htime, hw⟩
    · cases h
      exact r.positioned_spec c.frame days c.times

/-! ## Spans -/

/-- The second at which the span of a period opens: the beginning of its year, its month or its week, or the
last second behind it of whose kind there is one in each day, hour, minute or second. -/
def Rule.opens (r : Rule) (c : Cursor) : Int :=
  match r.frequency with
  | .yearly => daysBeforeYear c.frame.year * 86400
  | .monthly => (daysBeforeYear c.frame.year + daysBeforeMonth c.frame.year c.month.toNat) * 86400
  | .weekly => (c.dayNumber - (c.dayNumber - r.weekStart) % 7) * 86400
  | f => c.secondNumber - c.secondNumber % f.seconds

/-- The second at which the span of a period has closed. -/
def Rule.closes (r : Rule) (c : Cursor) : Int :=
  match r.frequency with
  | .yearly => daysBeforeYear (c.frame.year + 1) * 86400
  | .monthly => (daysBeforeYear c.frame.year + daysBeforeMonth c.frame.year (c.month.toNat + 1)) * 86400
  | f => r.opens c + f.seconds

/-- A wall reading lies in the span of a period. -/
def Rule.Spans (r : Rule) (c : Cursor) (w : Wall) : Prop :=
  r.opens c * 1000000 ≤ w.val ∧ w.val < r.closes c * 1000000

/-- A sound period stands in a month, and one of a week or less at a date. The weekday is that of the date. Its
times come in increasing order within a day, and those of a period within a day lie in its hour, its minute or
its second. -/
structure Cursor.Placed (r : Rule) (c : Cursor) : Prop extends Cursor.Sound r c where
  months : 1 ≤ c.month ∧ c.month ≤ 12
  dated : 2 ≤ r.frequency.rank → c.Dated
  week : r.frequency = .weekly → (c.weekday : Int) = c.dayNumber % 7
  sorted : c.times.Pairwise (· < ·)
  clock : ∀ t ∈ c.times, t < 86400
  within : 4 ≤ r.frequency.rank → ∀ t ∈ c.times,
    (t : Int) / r.frequency.seconds = c.secondOfDay / r.frequency.seconds

/-- The candidates of a period lie in its span. -/
theorem Cursor.Placed.spans (hweek : r.weekStart < 7) (hplaced : c.Placed r)
    (h : r.candidates c = .ok (pending, filtered)) : pending.Pairwise Earlier ∧
      ∀ w, some w ∈ pending → r.Spans c w := by
  obtain ⟨hsorted, first, stop, hperiod, hmem⟩ := Rule.candidates_spec hplaced.sorted hplaced.clock h
  obtain ⟨_, _, hof⟩ := hplaced.frame
  obtain ⟨hyear, -, hyear', -⟩ := Frame.of_ok hof
  obtain ⟨hlength, hfirst, hweekday⟩ := Frame.of_year hof
  refine ⟨hsorted, fun w hw => ?_⟩
  obtain ⟨day, hday, time, htime, hwall⟩ := hmem w hw
  have hclock := hplaced.clock time htime
  have hval := Frame.wallAt_some hwall
  have hsecond := hplaced.secondOfDay_mem
  unfold Rule.periodDays at hperiod
  unfold Rule.Spans Rule.closes Rule.opens
  cases hfrequency : r.frequency <;> simp only [hfrequency] at hperiod ⊢
  case yearly =>
    cases hperiod
    rw [daysBeforeYear_succ (by omega)]
    omega
  case monthly =>
    rw [hlength, daysInYear_eq, monthRange_eq _ hplaced.months] at hperiod
    cases hperiod
    omega
  all_goals
    have hdated := hplaced.dated (hfrequency ▸ by decide)
    obtain ⟨i, hi, hnumber⟩ := hdated.dayOfYear hfirst
    rw [hi] at hperiod
    cases hperiod
  case weekly =>
    simp only [daysToWeekStart, Frame.weekday, hweekday, Calendar.weekday, Frequency.seconds] at hday ⊢
    omega
  case daily =>
    simp only [Cursor.secondNumber, Frequency.seconds]
    omega
  all_goals
    have hsame := hplaced.within (hfrequency ▸ by decide) time htime
    simp only [hfrequency, Cursor.secondNumber, Frequency.seconds] at hsame ⊢
    omega

/-! ## From period to period -/

/-- A wall reading lies in a year of the calendar. -/
theorem year_mem (w : Wall) : 1 ≤ w.date.year ∧ w.date.year ≤ lastYear := by
  have hday : w.day < dayCount := by
    have := w.isLt
    unfold Wall.day dayCount microsPerDay microsPerSecond
    unfold wallCount at this
    omega
  rw [Wall.date, (Date.ofDay_spec w.day).2.1]
  exact ⟨(yearOf_spec w.day).1, yearOf_le hday⟩

/-- A period stands at a wall reading, but for its fraction of a second. -/
structure Cursor.StandsAt (c : Cursor) (w : Wall) : Prop where
  year : c.frame.year = w.date.year
  month : c.month = w.date.month
  day : c.day = w.date.day
  hour : c.hour = w.clock.hour
  minute : c.minute = w.clock.minute
  second : c.second = w.clock.second
  weekday : c.weekday = Calendar.weekday w.day

namespace Cursor.StandsAt

variable {w : Wall}

/-- A period that stands at a wall reading begins with its date. -/
theorem dated (h : c.StandsAt w) : c.Dated := by
  obtain ⟨-, hyear, hmonth, hday, hday'⟩ := Date.ofDay_spec w.day
  refine ⟨h.year ▸ year_mem w, ?_, ?_⟩
  · rw [h.month, Wall.date]
    omega
  · rw [h.day, h.year, h.month, Int.toNat_natCast, Wall.date, hyear]
    omega

/-- A period that stands at a wall reading has the number of its day. -/
theorem dayNumber (h : c.StandsAt w) : c.dayNumber = w.day := by
  obtain ⟨hnumber, -, -, hday, -⟩ := Date.ofDay_spec w.day
  unfold Cursor.dayNumber
  rw [h.year, h.month, h.day, Int.toNat_natCast]
  unfold Date.toDay at hnumber
  unfold Wall.date
  omega

/-- A period that stands at a wall reading has the number of its second. -/
theorem secondNumber (h : c.StandsAt w) : c.secondNumber = (w.val / microsPerSecond : Nat) := by
  unfold Cursor.secondNumber Cursor.secondOfDay
  rw [h.dayNumber, h.hour, h.minute, h.second]
  unfold Wall.clock Clock.ofMicros Wall.day microsPerDay microsPerSecond
  dsimp only
  omega

end Cursor.StandsAt

/-- The first period stands at the start, and it has the times of the rule, or of its hour, its minute and its
second, if they pass. -/
theorem Rule.opening_ok (h : r.opening = .ok c) : c.StandsAt r.start.wall ∧
    (r.frequency.rank < 4 → c.times = r.dayTimes) ∧
    (4 ≤ r.frequency.rank → c.times = [] ∨ r.periodTimes c.hour c.minute c.second = .ok c.times) := by
  unfold opening at h
  obtain ⟨frame, hframe, h⟩ := bind_eq_ok.mp h
  obtain ⟨-, -, hyear, -⟩ := Frame.of_ok hframe
  have hsame : frame.year = r.start.wall.date.year := by omega
  dsimp only at h
  split at h
  · next hrank =>
    cases h
    exact ⟨⟨hsame, rfl, rfl, rfl, rfl, rfl, rfl⟩, fun _ => rfl, fun hfine => absurd hrank (by omega)⟩
  · next hrank =>
    split at h
    · cases h
      exact ⟨⟨hsame, rfl, rfl, rfl, rfl, rfl, rfl⟩, fun hcoarse => absurd hcoarse hrank, fun _ => .inl rfl⟩
    · obtain ⟨times, htimes, h⟩ := bind_eq_ok.mp h
      cases h
      exact ⟨⟨hsame, rfl, rfl, rfl, rfl, rfl, rfl⟩, fun hcoarse => absurd hcoarse hrank, fun _ => .inr htimes⟩

/-- The first period is placed. -/
theorem Rule.placed_opening (hclocked : r.Clocked) (h : r.opening = .ok c) : c.Placed r := by
  have hsound := sound_opening h
  obtain ⟨hstands, hcoarse, hfine⟩ := opening_ok h
  have htimes : c.times.Pairwise (· < ·) ∧ ∀ t ∈ c.times, t < 86400 ∧ (4 ≤ r.frequency.rank →
      (t : Int) / r.frequency.seconds = c.secondOfDay / r.frequency.seconds) := by
    rcases Nat.lt_or_ge r.frequency.rank 4 with hrank | hrank
    · rw [hcoarse hrank]
      exact ⟨hclocked.dayTimes, fun t ht => ⟨hclocked.within t ht, fun hrank' => by omega⟩⟩
    · rcases hfine hrank with hnone | htimes
      · rw [hnone]
        exact ⟨.nil, fun _ ht => nomatch ht⟩
      · obtain ⟨hsorted, hmem⟩ := periodTimes_ok hclocked hrank hsound.minute hsound.second htimes
        exact ⟨hsorted, fun t ht => ⟨(hmem t ht).1, fun _ => (hmem t ht).2⟩⟩
  refine ⟨hsound, hstands.dated.month, fun _ => hstands.dated, fun _ => ?_, htimes.1,
    fun t ht => (htimes.2 t ht).1, fun hrank t ht => (htimes.2 t ht).2 hrank⟩
  rw [hstands.weekday, hstands.dayNumber]
  rfl

/-- A period of a week or less leads to a date that lies as many days later as pass. -/
theorem Leads.dated {between : Cursor} {days : Int} (h : Leads r c between c' days) (hdated : c.Dated)
    (hday : 1 ≤ c.day + days) : c'.Dated ∧ c'.dayNumber = c.dayNumber + days ∧
      ∃ frame month day, c' = { between with frame := frame, month := month, day := day } ∧
        ∃ year month, Frame.of r year month = .ok frame := by
  obtain ⟨hsound, ⟨hframe, hmonth, hday'⟩, hlands⟩ := h
  have hbetween : between.Dated ∧ between.dayNumber = c.dayNumber := by
    unfold Cursor.dayNumber
    obtain ⟨hyears, hmonths, hdays⟩ := hdated
    rw [← hframe, ← hmonth, ← hday'] at hdays
    rw [← hframe] at hyears ⊢
    rw [← hmonth] at hmonths ⊢
    exact ⟨⟨hyears, hmonths, hdays⟩, by rw [hday']⟩
  rcases hlands with ⟨rfl, rfl⟩ | hat
  · exact ⟨hbetween.1, by rw [hbetween.2, Int.add_zero], c'.frame, c'.month, c'.day, rfl, hsound.frame⟩
  · rcases Cursor.atDay_cases r hsound.frame hbetween.1.month hday with
      ⟨frame, month, day, hsome, hof, hdate, hnumber⟩ | ⟨hnone, -⟩ | ⟨halt, _, _, hhalt, -⟩
    · cases hat.symm.trans hsome
      exact ⟨hdate, by rw [hnumber, hbetween.2]; omega, frame, month, day, rfl, hof⟩
    · cases hat.symm.trans hnone
    · cases hat.symm.trans hhalt

/-- The period to which a placed one of a week or less leads is placed, if the times between them are. -/
theorem Leads.placed {between : Cursor} {days : Int} (h : Leads r c between c' days)
    (hdated : c.Dated) (hday : 1 ≤ c.day + days)
    (hweek : r.frequency = .weekly → (between.weekday : Int) = (c.dayNumber + days) % 7)
    (hsorted : between.times.Pairwise (· < ·)) (hclock : ∀ t ∈ between.times, t < 86400)
    (hwithin : 4 ≤ r.frequency.rank → ∀ t ∈ between.times,
      (t : Int) / r.frequency.seconds = between.secondOfDay / r.frequency.seconds) :
    c'.Placed r ∧ c'.dayNumber = c.dayNumber + days ∧
      c'.secondNumber = c.dayNumber * 86400 + days * 86400 + between.secondOfDay := by
  obtain ⟨hdated', hnumber, frame, month, day, rfl, hof⟩ := h.dated hdated hday
  refine ⟨⟨h.sound.withDate hof month day, hdated'.month, fun _ => hdated', fun hfrequency => ?_, hsorted,
    hclock, hwithin⟩, hnumber, ?_⟩
  · rw [hnumber]
    exact hweek hfrequency
  · unfold Cursor.secondNumber
    rw [hnumber, Int.add_mul]
    rfl

/-- The period after one of a week or less, with a positive interval, opens as much later as intervals take. -/
theorem Rule.placed_nextPeriod_fine (hclocked : r.Clocked) (hweek : r.weekStart < 7) (hinterval : 0 < r.interval)
    (hfine : 2 ≤ r.frequency.rank) (hplaced : c.Placed r) (h : r.nextPeriod c filtered = .ok (some c')) :
    c'.Placed r ∧ ∃ k, 1 ≤ k ∧ r.opens c' = r.opens c + k * (r.interval * r.frequency.seconds) := by
  have hdated := hplaced.dated hfine
  have hday := hdated.day.1
  have hsecond := hplaced.secondOfDay_mem
  by_cases hrank : 4 ≤ r.frequency.rank
  · obtain ⟨between, days, hticks⟩ := ticks_nextPeriod hrank hplaced.toSound h
    obtain ⟨k, htime, hk⟩ := hticks.intervals
    have hsecond' := hticks.leads.sound.secondOfDay_mem
    have hpasses := (hticks.passes hrank).1 hinterval
    obtain ⟨hsorted, hmem⟩ := periodTimes_ok hclocked hrank hticks.leads.sound.minute hticks.leads.sound.second
      hticks.times
    obtain ⟨hplaced', -, hnumber⟩ := hticks.leads.placed hdated (by omega)
      (fun hweekly => absurd hrank (hweekly ▸ by decide)) hsorted (fun t ht => (hmem t ht).1)
      fun _ t ht => (hmem t ht).2
    refine ⟨hplaced', k, hk (.inl hinterval), ?_⟩
    have hnumber' : c'.secondNumber = c.secondNumber + k * (r.interval * r.frequency.seconds) := by
      rw [hnumber, Int.add_assoc, htime]
      unfold Cursor.secondNumber
      omega
    unfold opens
    rw [hnumber']
    cases hfrequency : r.frequency <;> simp only [hfrequency] at hrank ⊢
    case yearly => exact absurd hrank (by decide)
    case monthly => exact absurd hrank (by decide)
    case weekly => exact absurd hrank (by decide)
    case daily => exact absurd hrank (by decide)
    all_goals
      rw [← Int.mul_assoc, Int.add_mul_emod_self_right]
      omega
  · cases hfrequency : r.frequency <;> simp only [hfrequency] at hfine hrank
    case weekly =>
      obtain ⟨back, hrange, hback, hleads⟩ := leads_weekly hweek hfrequency hplaced.toSound h
      have hweekday := hplaced.week hfrequency
      obtain ⟨hplaced', hnumber, -⟩ := hleads.placed hdated (by omega)
        (fun _ => by dsimp only; omega) hplaced.sorted hplaced.clock
        (fun hrank => absurd hrank (hfrequency ▸ by decide))
      refine ⟨hplaced', 1, Int.le_refl 1, ?_⟩
      simp only [opens, hfrequency, Frequency.seconds]
      omega
    case daily =>
      simp only [nextPeriod, hfrequency] at h
      obtain ⟨hplaced', hnumber, -⟩ := @Leads.placed r c c' c r.interval
        ⟨hplaced.toSound, ⟨rfl, rfl, rfl⟩, .inr h⟩ hdated (by omega)
        (fun hweekly => absurd (hfrequency.symm.trans hweekly) (by decide)) hplaced.sorted hplaced.clock
        fun hrank => absurd hrank (hfrequency ▸ by decide)
      refine ⟨hplaced', 1, Int.le_refl 1, ?_⟩
      have hsecond' := hplaced'.secondOfDay_mem
      simp only [opens, hfrequency, Frequency.seconds, Cursor.secondNumber]
      omega
    case yearly => exact absurd hfine (by decide)
    case monthly => exact absurd hfine (by decide)
    all_goals exact absurd (by decide) hrank

/-- With a positive interval, the span of a period has closed when that of the next one opens. -/
theorem Rule.placed_nextPeriod (hclocked : r.Clocked) (hweek : r.weekStart < 7) (hinterval : 0 < r.interval)
    (hplaced : c.Placed r) (h : r.nextPeriod c filtered = .ok (some c')) :
    c'.Placed r ∧ r.closes c ≤ r.opens c' := by
  by_cases hfine : 2 ≤ r.frequency.rank
  · obtain ⟨hplaced', k, hk, hopens⟩ := placed_nextPeriod_fine hclocked hweek hinterval hfine hplaced h
    refine ⟨hplaced', ?_⟩
    rw [hopens]
    cases hfrequency : r.frequency <;> simp only [closes, hfrequency, Frequency.seconds] at hfine ⊢
    case yearly => exact absurd hfine (by decide)
    case monthly => exact absurd hfine (by decide)
    all_goals
      have := Int.mul_pos (show 0 < k by omega) hinterval
      rw [← Int.mul_assoc]
      omega
  · have hcoarse : ∀ {frame month}, 1 ≤ month ∧ month ≤ 12 → (∃ year month, Frame.of r year month = .ok frame) →
        Cursor.Placed r { c with frame := frame, month := month } := fun hmonth hof =>
      ⟨hplaced.withDate hof _ c.day, hmonth, fun h => absurd h hfine,
        fun hweekly => absurd (hweekly ▸ by decide) hfine, hplaced.sorted, hplaced.clock,
        fun hrank => absurd (Nat.le_trans (by decide) hrank) hfine⟩
    obtain ⟨_, _, hof⟩ := hplaced.frame
    obtain ⟨hlow, -, hyear, -⟩ := Frame.of_ok hof
    have hmonths := hplaced.months
    cases hfrequency : r.frequency
    case yearly =>
      obtain ⟨frame, hframe, rfl⟩ := nextPeriod_yearly hfrequency h
      obtain ⟨-, -, hyear', -⟩ := Frame.of_ok hframe
      refine ⟨hcoarse hmonths ⟨_, _, hframe⟩, ?_⟩
      have := daysBeforeYear_le (show 1 ≤ c.frame.year + 1 by omega) (show c.frame.year + 1 ≤ frame.year by omega)
      simp only [closes, opens, hfrequency]
      omega
    case monthly =>
      obtain ⟨year, month, frame, hcount, hmonth, hframe, rfl⟩ := nextPeriod_monthly hfrequency h
      obtain ⟨-, -, hyear', -⟩ := Frame.of_ok hframe
      have hmonth' := hmonth (by omega)
      refine ⟨hcoarse hmonth' ⟨_, _, hframe⟩, ?_⟩
      simp only [closes, opens, hfrequency]
      rcases Nat.lt_or_ge c.frame.year frame.year with hlater | hsame
      · have hwithin := daysBeforeMonth_le_daysInYear c.frame.year (show 1 ≤ c.month.toNat + 1 by omega) (by omega)
        have hend := daysBeforeYear_le (show 1 ≤ c.frame.year + 1 by omega) hlater
        rw [daysBeforeYear_succ (by omega)] at hend
        omega
      · obtain hsame : frame.year = c.frame.year := by omega
        have := daysBeforeMonth_le c.frame.year (show 1 ≤ c.month.toNat + 1 by omega)
          (show c.month.toNat + 1 ≤ month.toNat by omega)
        rw [hsame]
        omega
    all_goals exact absurd (hfrequency ▸ by decide) hfine

end Recurrence

end Showrunner

import Showrunner.Dispatch.Run
import Showrunner.Proofs.Recurrence.Order
import Showrunner.Proofs.Recurrence.Refusals

/-!
# Faults of a recurrence

A rule that is read can be evaluated without a fault, unless it names a weekday too far into a year or a month, or
a day too far from Easter, or divides by an interval of zero. Each step of the evaluation blames its faults on what
the rule says, and so does the search for the next occurrence of a plan, where the rule text is read.
-/

namespace Showrunner

namespace Recurrence

open Calendar

/-! ## What a rule is to blame for -/

/-- A rule strays to a fault: it divides by an interval of zero where it has dropped a day, or it counts weekdays
too far into a year or a month, or days too far from Easter. -/
inductive Rule.Strays (r : Rule) : Fault → Prop
  | interval (hzero : r.interval = 0) (hrank : 4 ≤ r.frequency.rank) (hdays : ¬r.NamesNoDays) :
      Strays r (.division (text "integer division or modulo by zero"))
  | year {weekday : Nat} {n : Int} (hn : (weekday, n) ∈ r.nthWeekdays) (hyearly : r.frequency = .yearly)
      (hmonths : r.months = []) (hfar : n < -107 ∨ 55 < n) : Strays r (.index (text "list index out of range"))
  | month {weekday : Nat} {n : Int} (hn : (weekday, n) ∈ r.nthWeekdays)
      (hmonths : r.frequency = .yearly → r.months ≠ []) (hfar : n < -59 ∨ 7 < n) :
      Strays r (.index (text "list index out of range"))
  | easter {offset : Int} (hoffset : offset ∈ r.easterDays) (hfar : offset < -452 ∨ 257 < offset) :
      Strays r (.index (text "list assignment index out of range"))

/-- A halt is to be blamed on a rule if it is a fault to which the rule strays. -/
def Rule.Blamed (r : Rule) (halt : Halt) : Prop := ∀ fault, halt = .fault fault → r.Strays fault

/-- An operation of which something holds if it succeeds, and whose faults are to be blamed on the rule. -/
def Rule.Evaluates {α : Type} (r : Rule) (Q : α → Prop) (m : Except Halt α) : Prop := Comes r.Blamed Q m

variable {r : Rule}

/-- A refusal is not a fault. -/
theorem Halts.evaluates {α : Type} {m : Except Halt α} (h : Refuses m) : r.Evaluates (fun _ => True) m :=
  h.mono (by rintro _ rfl fault ⟨⟩) fun _ _ => trivial

/-- Steps over a list evaluate if each of them does. -/
theorem evaluates_mapM {α β : Type} {f : α → Except Halt β} {items : List α}
    (h : ∀ a ∈ items, r.Evaluates (fun _ => True) (f a)) : r.Evaluates (fun _ => True) (items.mapM f) :=
  (comes_mapM h).mono (fun _ => id) fun _ _ => trivial

/-! ## The days of a year -/

/-- The full moon of Easter lies within four weeks. -/
theorem easter_moon {g h : Int} (hg : 0 ≤ g ∧ g < 19) (hh : 0 ≤ h ∧ h < 30) :
    0 ≤ h - (h / 28) * (1 - (h / 28) * (29 / (h + 1)) * ((21 - g) / 11)) ∧
      h - (h / 28) * (1 - (h / 28) * (29 / (h + 1)) * ((21 - g) / 11)) ≤ 28 := by
  obtain hlow | rfl | rfl : h < 28 ∨ h = 28 ∨ h = 29 := by omega
  · have hnone : h / 28 = 0 := by omega
    rw [hnone, Int.zero_mul]
    omega
  · rw [show (28 : Int) / 28 = 1 by decide, show (29 : Int) / (28 + 1) = 1 by decide]
    omega
  · rw [show (29 : Int) / 28 = 1 by decide, show (29 : Int) / (29 + 1) = 0 by decide]
    omega

/-- Easter lies within five weeks. -/
theorem easter_date (year : Nat) : ∃ p : Int, -6 ≤ p ∧ p ≤ 28 ∧
    easter year = ⟨year, (3 + (p + 26) / 30).toNat, (1 + (p + 27 + (p + 6) / 40) % 31).toNat⟩ := by
  obtain ⟨g, hg⟩ : ∃ g : Int, g = (year : Int) % 19 := ⟨_, rfl⟩
  obtain ⟨h, hh⟩ : ∃ h : Int, h = ((year : Int) / 100 - (year : Int) / 100 / 4 -
    (8 * ((year : Int) / 100) + 13) / 25 + 19 * g + 15) % 30 := ⟨_, rfl⟩
  have hmoon := @easter_moon g h (by omega) (by omega)
  obtain ⟨i, hi⟩ : ∃ i, i = h - (h / 28) * (1 - (h / 28) * (29 / (h + 1)) * ((21 - g) / 11)) := ⟨_, rfl⟩
  rw [← hi] at hmoon
  refine ⟨i - ((year : Int) + year / 4 + i + 2 - year / 100 + (year : Int) / 100 / 4) % 7, by omega, by omega, ?_⟩
  rw [hi, hh, hg]
  rfl

/-- The day of Easter has its number between the end of March and the end of April. -/
theorem easter_toDay (year : Nat) : ∃ day : Nat,
    ((easter year).toDay : Int) = daysBeforeYear year + day ∧ 80 ≤ day ∧ day + 251 ≤ daysInYear year := by
  obtain ⟨p, hlow, hhigh, heaster⟩ := easter_date year
  have hbefore : daysBeforeMonth year 3 = (if isLeap year then 60 else 59) ∧
      daysBeforeMonth year 4 = if isLeap year then 91 else 90 := by
    unfold daysBeforeMonth daysInMonth
    cases isLeap year <;> decide
  refine ⟨(easter year).toDay - daysBeforeYear year, ?_⟩
  rw [heaster]
  unfold Date.toDay daysInYear
  dsimp only
  by_cases hp : p ≤ 3
  · have hmonth : (3 + (p + 26) / 30).toNat = 3 := by omega
    rw [hmonth, hbefore.1]
    split <;> omega
  · have hmonth : (3 + (p + 26) / 30).toNat = 4 := by omega
    rw [hmonth, hbefore.2]
    split <;> omega

/-- A month begins before the last month of a year does, and it ends after the first one. -/
theorem monthRange_mem {leap : Bool} {month : Int} {first stop : Nat}
    (h : monthRange leap month = .ok (first, stop)) : first ≤ 335 ∧ 31 ≤ stop := by
  -- whatever is cut out of the starts of the months, two of them are a month's start and its end
  have htable : ∀ leap, ∀ i ≤ 13, ∀ k ≤ 13, (((monthStarts leap).drop i).take k).length = 2 →
      (((monthStarts leap).drop i).take k).headD 0 ≤ 335 ∧
        31 ≤ (((monthStarts leap).drop i).take k).getLastD 0 := by decide
  have hlength : (monthStarts leap).length = 13 := by cases leap <;> rfl
  have hclamped : ∀ i, clamped (monthStarts leap).length i ≤ 13 := fun i => hlength ▸ Nat.min_le_right _ _
  have hrange := htable leap (clamped (monthStarts leap).length (month - 1)) (hclamped _)
    (clamped (monthStarts leap).length (month + 1) - clamped (monthStarts leap).length (month - 1))
    ((Nat.sub_le _ _).trans (hclamped _))
  unfold monthRange at h
  dsimp only at h
  split at h
  · next a b htwo =>
    cases h
    rw [htwo] at hrange
    exact hrange rfl
  · cases h

/-- A month that has no range is refused. -/
theorem refuses_monthRange (leap : Bool) (month : Int) : Refuses (monthRange leap month) := by
  unfold monthRange
  dsimp only
  split
  · exact halts_ok _
  · exact refuses_unusable

/-- Where a weekday may be counted: in a whole year, or in a month. -/
def Counted (r : Rule) (length : Nat) (first stop : Nat) : Prop :=
  (r.frequency = .yearly ∧ r.months = [] ∧ first = 0 ∧ stop = length) ∨
    ((r.frequency = .yearly → r.months ≠ []) ∧ first ≤ 335 ∧ 31 ≤ stop ∧ stop ≤ 366)

/-- A weekday is counted, unless the rule strays. -/
theorem evaluates_nthWeekday {firstWeekday length first stop weekday : Nat} {n : Int} (hfirst : firstWeekday < 7)
    (hlength : 365 ≤ length ∧ length ≤ 366) (hcounted : Counted r length first stop)
    (hn : (weekday, n) ∈ r.nthWeekdays) :
    r.Evaluates (fun _ => True) (nthWeekday firstWeekday first stop weekday n) := by
  unfold nthWeekday
  dsimp only
  split <;> split
  case isTrue.isTrue | isFalse.isTrue =>
    intro fault hfault
    cases hfault
    rcases hcounted with ⟨hyearly, hmonths, rfl, rfl⟩ | ⟨hmonths, hfirst', hstop, hstop'⟩
    · exact .year hn hyearly hmonths (by omega)
    · exact .month hn hmonths (by omega)
  all_goals trivial

/-- The weeks that a rule names are found, or the rule is refused. -/
theorem Rule.refuses_namedWeeks (r : Rule) (year length firstWeekday : Nat) :
    Refuses (namedWeeks r year length firstWeekday) := by
  unfold namedWeeks
  dsimp only
  refine Halts.ite (halts_ok _) ?_
  refine Halts.ite ((halts_ok _).bind fun _ => halts_ok _) ?_
  refine Halts.ite ((halts_ok _).bind fun _ => halts_ok _) ?_
  exact Halts.ite rfl ((halts_ok _).bind fun _ => halts_ok _)

/-- The weekdays that a rule counts are found, unless the rule strays. -/
theorem Rule.evaluates_namedNths (r : Rule) {leap : Bool} {length firstWeekday : Nat}
    (hlength : 365 ≤ length ∧ length ≤ 366) (hfirst : firstWeekday < 7) (month : Int) :
    r.Evaluates (fun _ => True) (namedNths r leap length firstWeekday month) := by
  have hmonth : ∀ month, (r.frequency = .yearly → r.months ≠ []) →
      r.Evaluates (fun range => Counted r length range.1 range.2) (monthRange leap month) := by
    intro month hmonths
    refine ((refuses_monthRange leap month).evaluates.self).mono (fun _ => id) fun range hrange => ?_
    obtain ⟨hfirst, hstop⟩ := monthRange_mem hrange
    exact .inr ⟨hmonths, hfirst, hstop, (monthRange_ok hrange).2.2⟩
  obtain ⟨find, hnamed, hfind⟩ : ∃ find : List (Nat × Nat) → Except Halt (List Int),
      namedNths r leap length firstWeekday month =
        (if r.nthWeekdays.isEmpty then pure []
        else if r.frequency == .yearly then
          if r.months.isEmpty then pure [(0, length)] >>= find else r.months.mapM (monthRange leap) >>= find
        else monthRange leap month >>= fun range => pure [range] >>= find) ∧
      ∀ ranges, (∀ range ∈ ranges, Counted r length range.1 range.2) →
        r.Evaluates (fun _ => True) (find ranges) := by
    refine ⟨_, rfl, fun ranges hranges => Comes.bind (evaluates_mapM fun range hrange =>
      evaluates_mapM fun nth hnth => ?_) fun _ _ => trivial⟩
    exact evaluates_nthWeekday hfirst hlength (hranges range hrange) hnth
  rw [hnamed]
  split
  · trivial
  · split
    · next hyearly =>
      split
      · next hmonths =>
        exact hfind _ (List.forall_mem_singleton.mpr
          (.inl ⟨beq_iff_eq.mp hyearly, List.isEmpty_iff.mp hmonths, rfl, rfl⟩))
      · next hmonths =>
        exact (comes_mapM fun month _ => hmonth month fun _ => mt List.isEmpty_iff.mpr hmonths).bind hfind
    · next hother =>
      exact (hmonth month fun hyearly => absurd (beq_iff_eq.mpr hyearly) hother).bind fun range hrange =>
        hfind _ (List.forall_mem_singleton.mpr hrange)

/-- The days that a rule counts from Easter are found, unless the rule strays. -/
theorem Rule.evaluates_namedEasters (r : Rule) (year : Nat) :
    r.Evaluates (fun _ => True) (namedEasters r year (daysInYear year) (daysBeforeYear year)) := by
  obtain ⟨day, hday, hlow, hhigh⟩ := easter_toDay year
  refine evaluates_mapM fun offset hoffset => ?_
  dsimp only
  have hlength : 365 ≤ daysInYear year := by
    unfold daysInYear
    split <;> decide
  split
  · intro fault hfault
    cases hfault
    exact .easter hoffset (by omega)
  · trivial

/-- The frame of a year is found, unless the rule strays. -/
theorem Rule.evaluates_frame (r : Rule) (year month : Int) :
    r.Evaluates (fun _ => True) (Frame.of r year month) := by
  have hlength : 365 ≤ daysInYear year.toNat ∧ daysInYear year.toNat ≤ 366 := by
    unfold daysInYear
    split <;> decide
  have hfirst : Calendar.weekday (daysBeforeYear year.toNat) < 7 := Nat.mod_lt _ (by decide)
  unfold Frame.of
  split
  · exact Halts.evaluates rfl
  · refine (r.refuses_namedWeeks ..).evaluates.bind fun weeks _ => ?_
    refine (r.evaluates_namedNths hlength hfirst month).bind fun nths _ => ?_
    exact (r.evaluates_namedEasters year.toNat).bind fun easters _ => trivial

/-! ## Periods -/

/-- The times of a period are found, or the rule is refused. -/
theorem Rule.refuses_periodTimes (r : Rule) (hour minute second : Int) :
    Refuses (r.periodTimes hour minute second) := by
  unfold periodTimes
  split <;> exact refuses_timesOfDay ..

/-- The first period is found, unless the rule strays. -/
theorem Rule.evaluates_opening (r : Rule) : r.Evaluates (fun _ => True) r.opening := by
  refine (r.evaluates_frame ..).bind fun frame _ => Halts.evaluates ?_
  dsimp only
  refine Halts.ite ((halts_ok _).bind fun _ => halts_ok _) (Halts.ite ?_ ?_)
  · exact (halts_ok _).bind fun _ => halts_ok _
  · exact (r.refuses_periodTimes ..).bind fun _ => halts_ok _

/-- The day of a period is found in its year, or the rule is refused. -/
theorem Cursor.refuses_dayOfYear (c : Cursor) : Refuses c.dayOfYear := by
  unfold dayOfYear
  refine Halts.ite rfl ?_
  split
  · exact halts_ok _
  · exact rfl

/-- The days of a period are found, or the rule is refused. -/
theorem Rule.refuses_periodDays (r : Rule) (c : Cursor) : Refuses (r.periodDays c) := by
  unfold periodDays
  split
  · exact halts_ok _
  · exact refuses_monthRange ..
  · exact c.refuses_dayOfYear.bind fun _ => halts_ok _
  · exact c.refuses_dayOfYear.bind fun _ => halts_ok _

/-- A rule that names no days drops none of a period. -/
theorem Rule.evaluates_candidates (r : Rule) (c : Cursor) :
    r.Evaluates (fun found => r.NamesNoDays → found.2 = false) (r.candidates c) := by
  refine (r.refuses_periodDays c).evaluates.bind fun (first, stop) _ => ?_
  have hkept : r.NamesNoDays →
      ((((List.range (stop - first)).map (first + ·)).filter (c.frame.keeps r)).length !=
        ((List.range (stop - first)).map (first + ·)).length) = false := fun hnone => by
    rw [List.filter_eq_self.mpr fun i _ => hnone.keeps c.frame i, bne_self_eq_false]
  dsimp only
  split
  · exact hkept
  · split
    · exact hkept
    · exact hkept

/-- A step to the next value of a part of the time is found, or the rule is refused. -/
theorem refuses_stepPart (interval cycle : Int) (values : List Int) (value : Int) :
    Refuses (stepPart interval cycle values value) := by
  unfold stepPart
  refine Halts.ite (halts_ok _) ?_
  split
  · exact halts_ok _
  · exact rfl

/-- Minutes that pass are found, or the rule is refused. -/
theorem Rule.refuses_stepMinutes (r : Rule) (days hour minute : Int) (steps : Nat) :
    Refuses (stepMinutes r days hour minute steps) := by
  induction steps generalizing days hour minute with
  | zero => exact rfl
  | succ steps ih => exact (refuses_stepPart ..).bind fun _ => Halts.ite (halts_ok _) (ih ..)

/-- Seconds that pass are found, or the rule is refused. -/
theorem Rule.refuses_stepSeconds (r : Rule) (days hour minute second : Int) (steps : Nat) :
    Refuses (stepSeconds r days hour minute second steps) := by
  induction steps generalizing days hour minute second with
  | zero => exact rfl
  | succ steps ih => exact (refuses_stepPart ..).bind fun _ => Halts.ite (halts_ok _) (ih ..)

/-- A period moves to another day, unless the rule strays. -/
theorem Cursor.evaluates_atDay (r : Rule) (c : Cursor) (day : Int) :
    r.Evaluates (fun _ => True) (c.atDay r day) := by
  unfold atDay
  split
  · trivial
  · split
    · trivial
    · split
      · trivial
      · exact (r.evaluates_frame ..).bind fun _ _ => trivial

/-- A period moves on by days, unless the rule strays. -/
theorem Cursor.evaluates_afterDays (r : Rule) (c : Cursor) (days : Int) :
    r.Evaluates (fun _ => True) (c.afterDays r days) := by
  unfold afterDays
  split
  · trivial
  · exact c.evaluates_atDay r _

/-- After a day that was dropped, whole intervals are counted, unless the interval is zero. -/
theorem Rule.evaluates_wholeIntervals {r : Rule} (hrank : 4 ≤ r.frequency.rank) (hdays : ¬r.NamesNoDays)
    (distance : Int) : r.Evaluates (fun _ => True) (wholeIntervals distance r.interval) := by
  unfold wholeIntervals
  split
  · next hzero =>
    intro fault hfault
    cases hfault
    exact .interval hzero hrank hdays
  · trivial

/-- The next period is found, unless the rule strays. -/
theorem Rule.evaluates_nextPeriod {r : Rule} {filtered : Bool} (c : Cursor)
    (hkept : r.NamesNoDays → filtered = false) : r.Evaluates (fun _ => True) (r.nextPeriod c filtered) := by
  have hskipped : 4 ≤ r.frequency.rank → ∀ (part distance : Int) (step : Int → Except Halt (Option Cursor)),
      (∀ part, r.Evaluates (fun _ => True) (step part)) → r.Evaluates (fun _ => True) (do
        let part ← if filtered then do pure (part + (← wholeIntervals distance r.interval)) else pure part
        step part) := by
    intro hrank part distance step hstep
    dsimp only
    split
    · next hfiltered =>
      have hdays : ¬r.NamesNoDays := fun hnone => absurd (hkept hnone) (by rw [hfiltered]; decide)
      exact (r.evaluates_wholeIntervals hrank hdays distance).bind fun _ _ => hstep _
    · exact hstep _
  have hmoved : ∀ (year month : Int) (moved : Frame → Cursor), r.Evaluates (fun _ => True)
      (if year > lastYear then pure none else do pure (some (moved (← Frame.of r year month)))) := by
    intro year month moved
    split
    · trivial
    · exact (r.evaluates_frame year month).bind fun _ _ => trivial
  unfold nextPeriod
  cases hfrequency : r.frequency <;> dsimp only
  case yearly => exact hmoved _ _ _
  case monthly => split <;> exact hmoved _ _ _
  case weekly => exact Cursor.evaluates_atDay ..
  case daily => exact Cursor.evaluates_atDay ..
  case hourly =>
    refine hskipped (hfrequency ▸ by decide) _ _ _ fun hour => ?_
    refine (refuses_stepPart ..).evaluates.bind fun _ _ => ?_
    exact (r.refuses_periodTimes ..).evaluates.bind fun _ _ => Cursor.evaluates_afterDays ..
  case minutely =>
    refine hskipped (hfrequency ▸ by decide) _ _ _ fun minute => ?_
    refine (r.refuses_stepMinutes ..).evaluates.bind fun _ _ => ?_
    exact (r.refuses_periodTimes ..).evaluates.bind fun _ _ => Cursor.evaluates_afterDays ..
  case secondly =>
    refine hskipped (hfrequency ▸ by decide) _ _ _ fun second => ?_
    refine (r.refuses_stepSeconds ..).evaluates.bind fun _ _ => ?_
    exact (r.refuses_periodTimes ..).evaluates.bind fun _ _ => Cursor.evaluates_afterDays ..

/-! ## Series -/

/-- Where a series has dropped a day, its rule names days. -/
def Series.Kept (s : Series) : Prop := s.rule.NamesNoDays → s.filtered = false

/-- What a rule gives next is an occurrence, and it goes on, or it is to blame for a fault. -/
def Next.Of (r : Rule) : Next → Prop
  | .occurrence _ rest => rest.rule = r ∧ rest.Kept
  | .halt h => r.Blamed h
  | .finished | .endless => True

/-- Candidates halt for no fault. -/
theorem pick_ne_fault {countLeft : Option Int} {pending : List Candidate} {fault : Fault} :
    pick r countLeft pending ≠ .halt (.fault fault) := by
  induction pending with
  | nil => rintro ⟨⟩
  | cons candidate pending ih =>
    cases candidate with
    | none => rintro ⟨⟩
    | some w =>
      unfold pick
      split
      · rintro ⟨⟩
      · split
        · rintro ⟨⟩
        · split
          · exact ih
          · split
            · split <;> rintro ⟨⟩
            · rintro ⟨⟩

/-- A rule goes on from period to period, unless it strays. -/
theorem next_advanceFrom {countLeft : Option Int} {periods : Nat} {pending : List Candidate} {c : Cursor}
    {filtered : Bool} (hkept : r.NamesNoDays → filtered = false) :
    (Series.advanceFrom r countLeft periods pending c filtered).Of r := by
  induction periods generalizing pending c filtered with
  | zero =>
    rw [Series.advanceFrom]
    split
    · exact ⟨rfl, hkept⟩
    · exact trivial
    · next h hpick =>
      intro fault hfault
      exact absurd (hfault ▸ hpick) pick_ne_fault
    · exact trivial
  | succ periods ih =>
    rw [Series.advanceFrom]
    split
    · exact ⟨rfl, hkept⟩
    · exact trivial
    · next h hpick =>
      intro fault hfault
      exact absurd (hfault ▸ hpick) pick_ne_fault
    · have hnext := Rule.evaluates_nextPeriod c hkept
      cases hperiod : r.nextPeriod c filtered with
      | error h =>
        rw [hperiod] at hnext
        exact hnext
      | ok found =>
        cases found with
        | none => exact trivial
        | some c' =>
          have hfound := r.evaluates_candidates c'
          dsimp only
          cases hcandidates : r.candidates c' with
          | error h =>
            rw [hcandidates] at hfound
            exact hfound
          | ok found =>
            rw [hcandidates] at hfound
            exact ih hfound

/-- The series of a rule begins, unless the rule strays. -/
theorem Rule.evaluates_series (r : Rule) : r.Evaluates (fun s => s.rule = r ∧ s.Kept) r.series :=
  r.evaluates_opening.bind fun c _ => (r.evaluates_candidates c).bind fun _ hkept => ⟨rfl, hkept⟩

/-! ## A merge -/

/-- A search that ends with a fault ends with one to which a rule strays. -/
def Blamed (rules : List Rule) (found : Found) : Prop :=
  ∀ fault, found = .halt (.fault fault) → ∃ r ∈ rules, r.Strays fault

/-- What is left of a part are dates, or a series of one of the rules. -/
def LeftOf (rules : List Rule) : List Moment ⊕ Series → Prop
  | .inl _ => True
  | .inr s => s.rule ∈ rules ∧ s.Kept

/-- The parts of a merge are of some rules. -/
def PartsOf (rules : List Rule) (parts : List Part) : Prop := ∀ p ∈ parts, LeftOf rules p.tail

section Merging

variable {rules : List Rule} {parts rest : List Part} {p : Part}

/-- No rule is to blame where there is nothing. -/
theorem comes_none {α : Type} {Q : α → Prop} : Comes (Blamed rules) Q (.error .none) := by
  rintro fault ⟨⟩

/-- No rule is to blame for a search without end. -/
theorem comes_endless {α : Type} {Q : α → Prop} : Comes (Blamed rules) Q (.error .endless) := by
  rintro fault ⟨⟩

/-- No rule is to blame if the rule text cannot be used. -/
theorem comes_unusable {α : Type} {Q : α → Prop} : Comes (Blamed rules) Q (.error (.halt .unusable)) := by
  rintro fault ⟨⟩

/-- No rule is to blame for a refusal. -/
theorem comes_blamed {α : Type} {Q : α → Prop} {m : Except Halt α}
    (h : Comes (fun h : Halt => h = .unusable) Q m) : Comes (Blamed rules) Q (m.mapError .halt : Search α) := by
  refine h.mapError fun halt hhalt fault hfault => ?_
  cases hhalt
  cases hfault

/-- What becomes of a part of some rules is a part of them, or one of them is to blame. -/
def Moved.Of (rules : List Rule) : Moved → Prop
  | .part p => LeftOf rules p.tail
  | .halt h => Blamed rules (.halt h)
  | .finished | .endless => True

/-- What is taken of a part of some rules leaves a part of them, or one of them is to blame. -/
theorem moved_of {tail : List Moment ⊕ Series} (h : LeftOf rules tail) : (moved tail).Of rules := by
  cases tail with
  | inl dates => cases dates <;> exact trivial
  | inr s =>
    obtain ⟨hrule, hkept⟩ := h
    have hnext : s.next.Of s.rule := next_advanceFrom hkept
    unfold moved
    dsimp only
    cases hs : s.next <;> rw [hs] at hnext <;> dsimp only
    case occurrence w rest => exact ⟨hnext.1 ▸ hrule, hnext.2⟩
    case finished | endless => exact trivial
    case halt halt =>
      rintro fault hfault
      cases hfault
      exact ⟨s.rule, hrule, hnext fault rfl⟩

/-- Parts that are ordered as a heap are still of their rules, or the rule text is refused. -/
theorem comes_heap {m : Except Halt (List Part)} (hm : Comes (fun h : Halt => h = .unusable) (·.Perm parts) m)
    (h : PartsOf rules parts) : Comes (Blamed rules) (PartsOf rules) (m.mapError .halt : Search (List Part)) :=
  comes_blamed (hm.mono (fun _ => id) fun _ hperm p hp => h p (hperm.mem_iff.mp hp))

/-- The occurrence of a part is taken, unless a rule strays. -/
theorem comes_stepParts (h : PartsOf rules (p :: rest)) :
    Comes (Blamed rules) (PartsOf rules) (stepParts p rest) := by
  obtain ⟨hp, hrest⟩ := List.forall_mem_cons.mp h
  have hmoved := moved_of hp
  unfold stepParts
  cases htail : moved p.tail <;> rw [htail] at hmoved <;> dsimp only
  case part next =>
    exact comes_heap (Heap.comes_replace comes_precedes next rest) (List.forall_mem_cons.mpr ⟨hmoved, hrest⟩)
  case finished => exact comes_heap (Heap.comes_pop comes_precedes rest) hrest
  case endless => exact comes_endless
  case halt halt => exact hmoved

/-- Parts are put in order, or the rule text is refused. -/
theorem comes_orderParts (h : PartsOf rules parts) :
    Comes (Blamed rules) (PartsOf rules) (orderParts parts) :=
  comes_heap (Heap.comes_build comes_precedes parts) h

/-- What is left out is passed over, unless a rule strays. -/
theorem comes_passBefore (m : Moment) {steps : Nat} (h : PartsOf rules parts) :
    Comes (Blamed rules) (PartsOf rules) (passBefore m steps parts) := by
  induction steps generalizing parts with
  | zero =>
    cases parts with
    | nil => exact h
    | cons p rest => exact comes_endless
  | succ steps ih =>
    cases parts with
    | nil => exact h
    | cons p rest =>
      unfold passBefore
      split
      · exact comes_unusable
      · split
        · exact (comes_stepParts h).bind fun _ => ih
        · exact h

/-- A search goes on from part to part, unless a rule strays. -/
theorem comes_searchAfter (moment : Moment) (last : Option Moment) {steps : Nat} {excepted : List Part}
    (h : PartsOf rules parts) (hexcepted : PartsOf rules excepted) :
    Comes (Blamed rules) (fun _ => True) (searchAfter moment last steps parts excepted) := by
  induction steps generalizing last parts excepted with
  | zero =>
    cases parts with
    | nil => exact comes_none
    | cons p rest => exact comes_endless
  | succ steps ih =>
    cases parts with
    | nil => exact comes_none
    | cons p rest =>
      unfold searchAfter
      split
      · exact (comes_stepParts h).bind fun _ hparts => ih _ hparts hexcepted
      · refine (comes_passBefore p.head hexcepted).bind fun excepted hexcepted => ?_
        dsimp only
        split
        · exact comes_unusable
        · split
          · trivial
          · exact (comes_stepParts h).bind fun _ hparts => ih _ hparts hexcepted

/-- Dates and series of some rules begin as parts of them, unless a rule strays. -/
theorem comes_beginPart {tail : List Moment ⊕ Series} (h : LeftOf rules tail) :
    Comes (Blamed rules) (PartsOf rules) (beginPart tail) := by
  have hmoved := moved_of h
  unfold beginPart
  cases htail : moved tail <;> rw [htail] at hmoved <;> dsimp only
  case part p => exact List.forall_mem_singleton.mpr hmoved
  case finished => exact List.forall_mem_nil _
  case endless => exact comes_endless
  case halt h => exact hmoved

/-- The parts of a merge begin with the dates and the series of the rules, unless a rule strays. -/
theorem comes_beginParts {rules' : List Rule} (dates : List Moment) (hrules : ∀ r ∈ rules', r ∈ rules) :
    Comes (Blamed rules) (PartsOf rules) (beginParts dates rules') := by
  have hdates : Refuses (sortMoments dates) := by
    unfold sortMoments
    split
    · exact halts_ok _
    · exact Halts.ite (halts_ok _) rfl
  have hseries : Comes (Blamed rules) (fun parts => ∀ part ∈ parts, PartsOf rules part)
      (rules'.mapM fun r => do beginPart (.inr (← r.series.mapError .halt))) := by
    refine comes_mapM fun r hr => ?_
    have hbegun : Comes (Blamed rules) (fun s => s.rule = r ∧ s.Kept)
        (r.series.mapError .halt : Search Series) := by
      refine r.evaluates_series.mapError fun h hblamed fault hfault => ?_
      cases hfault
      exact ⟨r, hrules r hr, hblamed fault rfl⟩
    refine hbegun.bind fun s ⟨hrule, hkept⟩ => @comes_beginPart _ (.inr s) ⟨?_, hkept⟩
    exact hrule ▸ hrules r hr
  refine (comes_blamed hdates).bind fun dates _ => ?_
  refine (@comes_beginPart _ (.inl dates) trivial).bind fun first hfirst => ?_
  refine hseries.bind fun parts hparts => List.forall_mem_append.mpr ⟨hfirst, fun p hp => ?_⟩
  obtain ⟨part, hpart, hp⟩ := List.mem_flatten.mp hp
  exact hparts part hpart p hp

/-- A search in a set ends without a fault, unless a rule of the set strays. -/
theorem RuleSet.blamed_after (set : RuleSet) (moment : Moment) :
    Blamed (set.rules ++ set.exceptRules) (set.after moment) := by
  have hsearch : Comes (Blamed (set.rules ++ set.exceptRules)) (fun _ => True) (do
      let parts ← beginParts set.dates set.rules
      let excepted ← beginParts set.exceptDates set.exceptRules
      let parts ← orderParts parts
      let excepted ← orderParts excepted
      searchAfter moment none set.stepLimit parts excepted) := by
    refine (comes_beginParts set.dates fun r => List.mem_append_left _).bind fun parts hparts => ?_
    refine (comes_beginParts set.exceptDates fun r => List.mem_append_right _).bind fun excepted hexcepted => ?_
    refine (comes_orderParts hparts).bind fun parts hparts => ?_
    exact (comes_orderParts hexcepted).bind fun excepted hexcepted => comes_searchAfter moment none hparts hexcepted
  unfold RuleSet.after
  dsimp only
  split
  · rintro fault ⟨⟩
  · next found hfound => exact (comes_iff.mp hsearch).2 found hfound

end Merging

/-! ## Plans -/

section Searching

variable {dates : Dates}

/-- The next occurrence in universal time is searched for without a fault, unless a rule strays to it or a date or a
zone of the rule text ends with it. -/
theorem strays_of_advanceUtc {current start : Wall} {rule : Text} {fault : Fault}
    (h : advanceUtc dates current start rule = .error fault) :
    (∃ set r, readSet dates (.utc start) rule.trim = .ok set ∧ r ∈ set.rules ++ set.exceptRules ∧ r.Strays fault) ∨
      dates.Fails (.fault fault) := by
  have hread : Reads dates (readSet dates (.utc start) rule.trim) := reads_readSet _ _
  unfold advanceUtc at h
  cases hset : readSet dates (.utc start) rule.trim with
  | error halt =>
    rw [hset] at hread h
    cases halt with
    | unusable => cases h
    | fault fault' =>
      cases h
      rcases hread with hunusable | hfails
      · cases hunusable
      · exact .inr hfails
  | ok set =>
    rw [hset] at h
    dsimp only at h
    split at h
    case h_5 hfound =>
      cases h
      obtain ⟨r, hr, hstrays⟩ := set.blamed_after (.utc current) fault hfound
      exact .inl ⟨set, r, rfl, hr, hstrays⟩
    all_goals cases h

/-- A plan that was rendered comes to the start that was found for it, if the search has come to an end. -/
theorem attempt_of_advance {σ : Type} {host : Dispatch.Host σ} {p : Plan} {s s' : σ} {reply : Json}
    {found : Advance} (hrender : host.render p s = (s', .ok reply))
    (h : advance (host.dates s') p.startsAt p.rrule p.anchorAt = .ok found) (hends : found ≠ .endless) :
    Dispatch.attempt host p s = (s', some (.ok found.stamp?)) := by
  unfold Dispatch.attempt Dispatch.nextStart
  rw [hrender]
  dsimp only
  rw [h]
  cases found with
  | endless => exact absurd rfl hends
  | next t => rfl
  | last => rfl
  | ignored => rfl

/-- The next occurrence after a start is searched for without a fault, unless one of the rules that are read, or
one of those that are left out, strays to the fault, or reading a date or finding a zone of the rule text ends with
it. Otherwise a plan that was rendered comes to its next start, or to none, if the search comes to an end. -/
theorem advance_ok_or_strays {startsAt anchor current start : Stamp} (rule : Option Text)
    (hcurrent : startsAt.toUtc? = some current) (hstart : anchor.toUtc? = some start) :
    (∃ found, advance dates startsAt rule (some anchor) = .ok found ∧
      (found ≠ .endless → ∀ {σ : Type} (host : Dispatch.Host σ) (p : Plan) (s s' : σ) (reply : Json),
        p.startsAt = startsAt → p.rrule = rule → p.anchorAt = some anchor → host.render p s = (s', .ok reply) →
          host.dates s' = dates → Dispatch.attempt host p s = (s', some (.ok found.stamp?)))) ∨
      (∃ text set r fault, rule = some text ∧ readSet dates (.utc start.wall) text.trim = .ok set ∧
        r ∈ set.rules ++ set.exceptRules ∧ r.Strays fault ∧
          advance dates startsAt rule (some anchor) = .error fault) ∨
      ∃ fault, dates.Fails (.fault fault) ∧ advance dates startsAt rule (some anchor) = .error fault := by
  cases hadvance : advance dates startsAt rule (some anchor) with
  | ok found =>
    refine .inl ⟨found, rfl, fun hends σ host p s s' reply hstartsAt hrule hanchor hrender hdates => ?_⟩
    exact attempt_of_advance hrender (by rw [hdates, hstartsAt, hrule, hanchor, hadvance]) hends
  | error fault =>
    cases rule with
    | none => cases hadvance
    | some text =>
      have hblank : text.isBlank = false := by
        by_contra hblank
        have hlast : advance dates startsAt (some text) (some anchor) = .ok .last :=
          if_pos (Bool.eq_true_of_not_eq_false hblank)
        cases hlast.symm.trans hadvance
      rw [advance_eq_advanceUtc hblank hcurrent hstart] at hadvance
      rcases strays_of_advanceUtc hadvance with ⟨set, r, hset, hr, hstrays⟩ | hfails
      · exact .inr (.inl ⟨text, set, r, fault, rfl, hset, hr, hstrays, rfl⟩)
      · exact .inr (.inr ⟨fault, hfails, rfl⟩)

end Searching

/-- The sixtieth Monday of a year. -/
def sixtiethMonday : Text := text "FREQ=YEARLY;BYDAY=60MO"

/-- Decide whether a search looked outside a list. -/
def looksOutside : Except Fault Advance → Bool
  | .error (.index message) => message == text "list index out of range"
  | _ => false

/-- No year has as many Mondays: the search for the sixtieth one looks outside a list. -/
theorem advance_sixtiethMonday : advance onNewYear newYear (some sixtiethMonday) (some newYear) =
    .error (.index (text "list index out of range")) := by
  have hfault : looksOutside (advance onNewYear newYear (some sixtiethMonday) (some newYear)) = true := by
    decide +kernel
  unfold looksOutside at hfault
  split at hfault
  · next message hindex => rw [hindex, beq_iff_eq.mp hfault]
  · cases hfault

/-- On no day does the reading of a date end with a fault. -/
theorem read_on_ne_fault (today : Calendar.Date) (cs : List Char) (fault : Fault) :
    (Dates.on today).read cs ≠ .error (.fault fault) := by
  unfold Dates.on
  intro hread
  dsimp only at hread
  split at hread <;> cases hread

/-- On a day on which no date of a rule text ends with a fault, the search for the sixtieth Monday of a year ends
with one because the rule counts too far. -/
theorem sixtiethMonday_strays : newYear.toUtc? = some newYear ∧ ∃ set r,
    readSet onNewYear (.utc newYear.wall) sixtiethMonday.trim = .ok set ∧ r ∈ set.rules ++ set.exceptRules ∧
      r.Strays (.index (text "list index out of range")) := by
  have hstart : newYear.toUtc? = some newYear := Stamp.toUtc?_utc _
  refine ⟨hstart, ?_⟩
  rcases advance_ok_or_strays (some sixtiethMonday) hstart hstart with
    ⟨found, hfound, -⟩ | ⟨text, set, r, fault, htext, hset, hr, hstrays, hfault⟩ | ⟨fault, ⟨cs, hread | hzone⟩, -⟩
  · cases hfound.symm.trans advance_sixtiethMonday
  · cases htext
    cases hfault.symm.trans advance_sixtiethMonday
    exact ⟨set, r, hset, hr, hstrays⟩
  · exact absurd hread (read_on_ne_fault _ cs fault)
  · cases hzone

/-- A rule that can be read may end with a fault, and then a plan that was rendered fails because of its rule. -/
theorem sixtiethMonday_fails : ∃ rule : Text,
    (readSet onNewYear (.utc newYear.wall) rule.trim).toOption.isSome = true ∧
      ∀ {σ : Type} (host : Dispatch.Host σ) (p : Plan) (s s' : σ) (reply : Json),
        p.startsAt = newYear → p.rrule = some rule → p.anchorAt = some newYear → host.render p s = (s', .ok reply) →
          host.dates s' = onNewYear → Dispatch.runPlan host p s =
            ((Dispatch.recordFailure host p (.index (text "list index out of range")) s').1,
              some (Dispatch.recordFailure host p (.index (text "list index out of range")) s').2) := by
  refine ⟨sixtiethMonday, by decide +kernel, fun host p s s' reply hstartsAt hrule hanchor hrender hdates => ?_⟩
  unfold Dispatch.runPlan Dispatch.attempt Dispatch.nextStart
  rw [hrender, hstartsAt, hrule, hanchor]
  dsimp only
  rw [hdates, advance_sixtiethMonday]
  rfl

end Recurrence

end Showrunner

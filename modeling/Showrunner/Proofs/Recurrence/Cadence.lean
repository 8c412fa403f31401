import Mathlib.Order.Bounds.Basic
import Showrunner.Proofs.Recurrence.Plain
import Showrunner.Proofs.Recurrence.Written

/-!
# The cadence of plain rules

A plain rule is read as it is written, and from its anchor on it repeats as regularly as a clock: the next
occurrence after a start is found by counting whole intervals, while the count lasts and the calendar goes on.
-/

namespace Showrunner

namespace Recurrence

open Calendar

variable {r : Rule} {c : Cursor} {f : Frequency} {n : Nat} {count : Option Nat} {dates : Dates}

/-! ## From parts to a rule -/

/-- The parts of a rule that says nothing but its frequency, its interval and perhaps its count. -/
def Parts.plain (f : Frequency) (n : Nat) (count : Option Nat) : Parts :=
  { Draft.empty.parts with frequency := f, interval := n, count := count.map Int.ofNat }

/-- The rule of weeks or less that plain parts make: what is finer than its frequency is that of its start. -/
def Rule.plain (f : Frequency) (n : Nat) (count : Option Nat) (start : Moment) : Rule :=
  let wall := start.wall.wholeSecond
  { start := { start with wall := wall }
    frequency := f
    interval := n
    weekStart := 0
    count := count.map Int.ofNat
    til := none
    positions := []
    months := []
    monthDays := []
    yearDays := []
    easterDays := []
    weeks := []
    weekdays := if f = .weekly then [Calendar.weekday wall.day] else []
    nthWeekdays := []
    hours := if f.rank < 4 then [(wall.clock.hour : Int)] else []
    minutes := if f.rank < 5 then [(wall.clock.minute : Int)] else []
    seconds := if f.rank < 6 then [(wall.clock.second : Int)] else []
    dayTimes := if f.rank < 4 then [wall.val % microsPerDay / microsPerSecond] else [] }

/-- The time of a wall reading's clock is that of its second of the day. -/
theorem timesOfDay_clock (w : Wall) :
    timesOfDay [(w.clock.hour : Int)] [(w.clock.minute : Int)] [(w.clock.second : Int)] =
      .ok [w.val % microsPerDay / microsPerSecond] := by
  rw [timesOfDay_single] <;> unfold Wall.clock Clock.ofMicros microsPerDay microsPerSecond <;> dsimp only
  · congr 2
    omega
  all_goals omega

/-- Plain parts of weeks or less make a plain rule. -/
theorem toRule_plain (hfine : 2 ≤ f.rank) (start : Moment) :
    (Parts.plain f n count).toRule start = .ok (Rule.plain f n count start) := by
  have hnone : sortedSet [] = [] := by
    rw [sortedSet, List.mergeSort_nil]
    rfl
  unfold Parts.toRule Parts.plain Draft.empty Rule.plain
  cases f
  case yearly => exact absurd hfine (by decide)
  case monthly => exact absurd hfine (by decide)
  all_goals simp [Parts.saysDays, timeValues, Frequency.rank, hnone, timesOfDay_clock, bind, Except.bind, pure,
    Except.pure]

/-- The rule that plain parts make is plain. -/
theorem Rule.isPlain_plain (hfine : 2 ≤ f.rank) (hn : 1 ≤ n) (start : Moment) :
    (Rule.plain f n count start).Plain where
  fine := hfine
  clocked := (toRule_ok (toRule_plain hfine start)).1
  week := Nat.zero_lt_succ 6
  interval := Int.natCast_pos.mpr hn
  til := rfl
  positions := rfl
  months := rfl
  weeks := rfl
  weekdays := rfl
  nthWeekdays := rfl
  easterDays := rfl
  monthDays := rfl
  yearDays := rfl
  hours h := if_neg (Nat.not_lt.mpr h)
  minutes h := by
    change 4 ≤ f.rank at h
    cases f <;> first | rfl | exact absurd h (by decide)
  seconds _ := by cases f <;> rfl
  dayTimes h := if_pos h

/-! ## The first period -/

/-- The first period of a plain rule has its occurrence at the start of the rule. -/
theorem Rule.Plain.opening (hplain : r.Plain) : ∃ c, r.opening = .ok c ∧ r.Stands c r.start.wall.day ∧
    c.StandsAt r.start.wall := by
  have hyear := year_mem r.start.wall
  unfold lastYear at hyear
  obtain ⟨frame, hframe⟩ :=
    @Rule.Plain.exists_frame r hplain r.start.wall.date.year r.start.wall.date.month (by omega)
  have hclock : ((r.start.wall.clock.hour * 60 + r.start.wall.clock.minute) * 60 + r.start.wall.clock.second =
      r.start.wall.val % microsPerDay / microsPerSecond) ∧ r.start.wall.clock.hour < 24 ∧
        r.start.wall.clock.minute < 60 ∧ r.start.wall.clock.second < 60 := by
    unfold Wall.clock Clock.ofMicros microsPerDay microsPerSecond
    dsimp only
    omega
  obtain ⟨times, htimes, hopen⟩ : ∃ times, times = [r.start.wall.val % microsPerDay / microsPerSecond] ∧
      r.opening = .ok ⟨frame, r.start.wall.date.month, r.start.wall.date.day, r.start.wall.clock.hour,
        r.start.wall.clock.minute, r.start.wall.clock.second, Calendar.weekday r.start.wall.day, times⟩ := by
    refine ⟨_, rfl, bind_eq_ok.mpr ⟨frame, hframe, ?_⟩⟩
    dsimp only
    by_cases hrank : r.frequency.rank < 4
    · rw [if_pos hrank, hplain.dayTimes hrank]
      rfl
    · have hrank' := Nat.not_lt.mp hrank
      have hpasses : (!lets r.hours r.start.wall.clock.hour ||
          (decide (r.frequency.rank ≥ 5) && !lets r.minutes r.start.wall.clock.minute) ||
            (decide (r.frequency.rank ≥ 6) && !lets r.seconds r.start.wall.clock.second)) = false := by
        rw [hplain.hours hrank', hplain.minutes hrank', hplain.seconds hrank']
        cases r.frequency <;> rfl
      rw [if_neg hrank, hpasses, if_neg Bool.false_ne_true,
        hplain.periodTimes hrank' (by omega) (by omega) (by omega) (fun _ => rfl) fun _ => rfl, ← hclock.1]
      rfl
  refine ⟨_, hopen, ⟨placed_opening hplain.clocked hopen, ?_, fun _ => rfl, fun _ => rfl, fun _ => ?_,
    fun hf => ?_⟩, (opening_ok hopen).1⟩
  · unfold Cursor.secondOfDay
    dsimp only
    rw [htimes, ← hclock.1]
    rfl
  · exact (opening_ok hopen).1.dayNumber.symm
  · have hnumber := (opening_ok hopen).1.dayNumber
    have hweek := hplain.week
    rw [hnumber]
    unfold Calendar.weekday
    omega

/-- A plain rule unfolds to its start and what follows it after whole intervals, as many as are counted, until the
calendar ends. -/
theorem Rule.Plain.unfolds_start {ws : List Wall} {halt : Option Halt} (hplain : r.Plain)
    (hwhole : r.start.wall.val % microsPerSecond = 0) (h : r.Unfolds ws halt) :
    (∀ i : Nat, ws[i]? = if Counts r.count i then
      Wall.ofMicros? (r.start.wall.val + i * (r.interval * r.frequency.seconds) * 1000000) else none) ∧
      (halt = none ∨ halt = some .unusable) := by
  obtain ⟨c, hopen, hstands, hat⟩ := hplain.opening
  obtain ⟨filtered, hcandidates, hkept⟩ := hstands.candidates hplain
  have hsecond : (r.start.wall.val : Int) = ((r.start.wall.day : Int) * 86400 + c.secondOfDay) * 1000000 := by
    have hnumber := hat.secondNumber
    unfold Cursor.secondNumber at hnumber
    rw [hat.dayNumber] at hnumber
    unfold microsPerSecond at hnumber hwhole
    omega
  have hseries : r.series = .ok ⟨r,
      [Wall.ofMicros? (((r.start.wall.day : Int) * 86400 + c.secondOfDay) * 1000000)], c, filtered, r.count,
      r.periodLimit⟩ :=
    bind_eq_ok.mpr ⟨c, hopen, bind_eq_ok.mpr ⟨_, hcandidates, rfl⟩⟩
  cases h with
  | halted hhalt => cases hhalt.symm.trans hseries
  | series hseries' hunfolds =>
    cases hseries'.symm.trans hseries
    obtain ⟨hall, hhalt⟩ := hplain.unfolds hstands hkept hsecond.le hunfolds
    refine ⟨fun i => ?_, hhalt⟩
    rw [hall i]
    unfold later?
    rw [Int.add_mul, ← hsecond]

/-! ## Plain texts -/

/-- The name of a frequency. -/
def Frequency.name : Frequency → String
  | .yearly => "YEARLY"
  | .monthly => "MONTHLY"
  | .weekly => "WEEKLY"
  | .daily => "DAILY"
  | .hourly => "HOURLY"
  | .minutely => "MINUTELY"
  | .secondly => "SECONDLY"

/-- The parts of a plain rule as they are written: its frequency, and its interval and its count if they are
given. -/
def plainParts (f : Frequency) (interval count : Option Nat) : List (String × List Char) :=
  ("FREQ", f.name.toList) :: (interval.toList.map fun n => ("INTERVAL", Nat.toDigits 10 n)) ++
    count.toList.map fun n => ("COUNT", Nat.toDigits 10 n)

/-- A number that is read is an integer. -/
theorem integer_toDigits (h : (Nat.toDigits 10 n).length ≤ Integer.digitLimit) :
    integer (Nat.toDigits 10 n) = .ok (n : Int) := by
  rw [integer, Integer.read?_toDigits h]
  rfl

/-- The name of a frequency is read as the frequency. -/
theorem part_frequency (d : Draft) (f : Frequency) :
    d.part dates "FREQ".toList f.name.toList = .ok { d with frequency := some f } := by
  have hread : frequency? f.name.toList = some f := by cases f <;> decide
  unfold Draft.part
  rw [String.ofList_toList]
  dsimp only
  rw [hread]
  rfl

/-- A number is read as an interval. -/
theorem part_interval (d : Draft) (h : (Nat.toDigits 10 n).length ≤ Integer.digitLimit) :
    d.part dates "INTERVAL".toList (Nat.toDigits 10 n) = .ok { d with parts := { d.parts with interval := n } } := by
  unfold Draft.part
  rw [String.ofList_toList]
  dsimp only
  rw [integer_toDigits h]
  rfl

/-- A number is read as a count. -/
theorem part_count (d : Draft) (h : (Nat.toDigits 10 n).length ≤ Integer.digitLimit) :
    d.part dates "COUNT".toList (Nat.toDigits 10 n) =
      .ok { d with parts := { d.parts with count := some (n : Int) } } := by
  unfold Draft.part
  rw [String.ofList_toList]
  dsimp only
  rw [integer_toDigits h]
  rfl

/-- The parts of a plain rule are bare. -/
theorem bareParts_plain (f : Frequency) (interval count : Option Nat) :
    BareParts (plainParts f interval count) := by
  have hdigits : ∀ n : Nat, (Nat.toDigits 10 n).all (fun c => c.isUpper || c.isDigit) = true := fun n => by
    refine List.all_eq_true.mpr fun c hc => ?_
    rw [(Integer.isAscii_spec (Digits.isAscii_of_mem_toDigits hc)).1, Bool.or_true]
  intro part hpart
  simp only [plainParts, List.cons_append, List.mem_cons, List.mem_append, List.mem_map] at hpart
  rcases hpart with rfl | ⟨n, -, rfl⟩ | ⟨n, -, rfl⟩
  · cases f <;> decide
  · rw [List.all_append, hdigits, Bool.and_true]
    dsimp only
    decide
  · rw [List.all_append, hdigits, Bool.and_true]
    dsimp only
    decide

/-- Steps that commute lead to the same in any order. -/
theorem foldlM_perm {α σ ε : Type} {step : σ → α → Except ε σ} {l l' : List α} (h : l.Perm l')
    (hcomm : ∀ a ∈ l, ∀ b ∈ l, ∀ s, (step s a >>= (step · b)) = (step s b >>= (step · a))) (s : σ) :
    l.foldlM step s = l'.foldlM step s := by
  induction h generalizing s with
  | nil => rfl
  | cons a _ ih =>
    rw [List.foldlM_cons, List.foldlM_cons]
    refine bind_congr fun s' => ih (fun b hb c hc => ?_) s'
    exact hcomm b (List.mem_cons_of_mem _ hb) c (List.mem_cons_of_mem _ hc)
  | swap a b l =>
    simp only [List.foldlM_cons, ← bind_assoc]
    rw [hcomm b List.mem_cons_self a (List.mem_cons_of_mem _ List.mem_cons_self) s]
  | trans h _ ih ih' =>
    rw [ih hcomm, ih' fun a ha b hb => hcomm a (h.mem_iff.mpr ha) b (h.mem_iff.mpr hb)]

section Reading

variable {interval : Option Nat} {parts : List (String × List Char)}
  (hinterval : ∀ n ∈ interval, (Nat.toDigits 10 n).length ≤ Integer.digitLimit)
  (hcount : ∀ n ∈ count, (Nat.toDigits 10 n).length ≤ Integer.digitLimit)

include hinterval hcount

/-- A part of a plain rule is read as the frequency, as the interval or as the count. -/
theorem part_plain {part : String × List Char} (hpart : part ∈ plainParts f interval count) :
    (∀ d : Draft, d.part dates part.1.toList part.2 = .ok { d with frequency := some f }) ∨
      (∃ n ∈ interval, ∀ d : Draft, d.part dates part.1.toList part.2 =
        .ok { d with parts := { d.parts with interval := n } }) ∨
      ∃ n ∈ count, ∀ d : Draft, d.part dates part.1.toList part.2 =
        .ok { d with parts := { d.parts with count := some (n : Int) } } := by
  simp only [plainParts, List.cons_append, List.mem_cons, List.mem_append, List.mem_map, Option.mem_toList]
    at hpart
  rcases hpart with rfl | ⟨n, hn, rfl⟩ | ⟨n, hn, rfl⟩
  · exact .inl fun d => part_frequency d f
  · exact .inr (.inl ⟨n, hn, fun d => part_interval d (hinterval n hn)⟩)
  · exact .inr (.inr ⟨n, hn, fun d => part_count d (hcount n hn)⟩)

/-- Parts of a plain rule are read alike in either order. -/
theorem part_plain_comm {part part' : String × List Char} (hpart : part ∈ plainParts f interval count)
    (hpart' : part' ∈ plainParts f interval count) (d : Draft) :
    (d.part dates part.1.toList part.2 >>= fun d => d.part dates part'.1.toList part'.2) =
      (d.part dates part'.1.toList part'.2 >>= fun d => d.part dates part.1.toList part.2) := by
  rcases part_plain hinterval hcount hpart with h | ⟨n, hn, h⟩ | ⟨n, hn, h⟩ <;>
    rcases part_plain hinterval hcount hpart' with h' | ⟨m, hm, h'⟩ | ⟨m, hm, h'⟩ <;>
    rw [h, h'] <;> simp only [bind, Except.bind, h, h']
  · rw [Option.mem_unique hn hm]
  · rw [Option.mem_unique hn hm]

/-- The parts of a plain rule are read as plain parts, in whatever order they are written. -/
theorem isRule_plain (hparts : parts.Perm (plainParts f interval count)) :
    IsRule dates (Text.ofChars (written parts)) (Parts.plain f (interval.getD 1) count) := by
  have hbare : BareParts parts := fun part hpart => bareParts_plain f interval count part (hparts.mem_iff.mp hpart)
  have hne : parts ≠ [] := by
    rintro rfl
    exact absurd hparts.symm.eq_nil (List.cons_ne_nil _ _)
  have hread : (plainParts f interval count).foldlM (fun (d : Draft) part => d.part dates part.1.toList part.2)
      Draft.empty =
        .ok ⟨some f, { Parts.plain f (interval.getD 1) count with frequency := Draft.empty.parts.frequency }⟩ := by
    refine bind_eq_ok.mpr ⟨_, part_frequency _ f, ?_⟩
    cases interval with
    | none =>
      cases count with
      | none => rfl
      | some m => exact bind_eq_ok.mpr ⟨_, part_count _ (hcount m rfl), rfl⟩
    | some n =>
      refine bind_eq_ok.mpr ⟨_, part_interval _ (hinterval n rfl), ?_⟩
      cases count with
      | none => rfl
      | some m => exact bind_eq_ok.mpr ⟨_, part_count _ (hcount m rfl), rfl⟩
  refine isRule_written hbare ((readParts_written hbare hne).trans ?_)
  rw [foldlM_perm hparts fun part hpart part' hpart' d => part_plain_comm hinterval hcount
    (hparts.mem_iff.mp hpart) (hparts.mem_iff.mp hpart') d, hread]
  rfl

end Reading

/-! ## The next occurrence -/

/-- The first occurrence of a plain rule after a moment is that after the least number of intervals that passes
the moment. -/
theorem Rule.Plain.find?_eq_getElem? {ws : List Wall} {current : Wall} {k : Nat} (hplain : r.Plain)
    (hsorted : ws.Pairwise (· < ·))
    (h : ∀ i : Nat, ws[i]? = if Counts r.count i then
      Wall.ofMicros? (r.start.wall.val + i * (r.interval * r.frequency.seconds) * 1000000) else none)
    (hk : IsLeast {k : Nat | (current.val : Int) <
      r.start.wall.val + k * (r.interval * r.frequency.seconds) * 1000000} k) :
    ws.find? (current < ·) = ws[k]? := by
  have hval : ∀ {i : Nat} {w : Wall}, ws[i]? = some w →
      (w.val : Int) = r.start.wall.val + i * (r.interval * r.frequency.seconds) * 1000000 := by
    intro i w hw
    rw [h i] at hw
    split at hw
    · exact Wall.ofMicros?_some hw
    · cases hw
  -- what is later than the moment has a number from `k` on
  have hlater : ∀ {i : Nat} {w : Wall}, ws[i]? = some w → current < w → k ≤ i := by
    intro i w hw hlt
    refine hk.2 ?_
    have hvalue := hval hw
    have hlt' := Fin.lt_def.mp hlt
    change (current.val : Int) < _
    omega
  cases hw : ws[k]? with
  | some w =>
    refine find?_lt_of_isLeast hsorted ⟨⟨List.mem_of_getElem? hw, ?_⟩, ?_⟩
    · have hvalue := hval hw
      have hpast : (current.val : Int) < _ := hk.1
      exact Fin.lt_def.mpr (by omega)
    · rintro v ⟨hv, hlt⟩
      obtain ⟨i, hi⟩ := List.getElem?_of_mem hv
      have hmore := Int.mul_le_mul_of_nonneg_right (Int.ofNat_le.mpr (hlater hi hlt)) hplain.interval_nonneg
      have hvalue := hval hw
      have hvalue' := hval hi
      exact Fin.le_def.mpr (by omega)
  | none =>
    refine List.find?_eq_none.mpr fun v hv hlt => ?_
    obtain ⟨i, hi⟩ := List.getElem?_of_mem hv
    have hle := hlater hi (of_decide_eq_true hlt)
    have hlength := List.getElem?_eq_none_iff.mp hw
    have hbound := (List.getElem?_eq_some_iff.mp hi).1
    omega

section Advancing

variable {interval : Option Nat} {parts : List (String × List Char)} {anchor start startsAt current : Stamp}

/-- Intervals of a positive length pass every moment. -/
theorem exists_isLeast_passing (first moment : Int) {length : Int} (hlength : 0 < length) :
    ∃ k : Nat, IsLeast {k : Nat | moment < first + k * length * 1000000} k := by
  have hpasses : ∃ k : Nat, moment < first + k * length * 1000000 := by
    refine ⟨(moment - first).toNat + 1, ?_⟩
    have hmore := Int.mul_le_mul_of_nonneg_left (show 1 ≤ length from hlength)
      (Int.natCast_nonneg ((moment - first).toNat + 1))
    omega
  exact ⟨Nat.find hpasses, Nat.find_spec hpasses, fun _ hk => Nat.find_min' hpasses hk⟩

/-- A rule that says nothing but its frequency, of weeks or less, and perhaps its interval and its count is read
as it is written, in whatever order. However such a rule is written, its next occurrence after a start is the
whole second of its anchor moved by the least number of intervals that passes the start, if that many are counted
and the calendar goes on until then; if not, the rule has ended. -/
theorem advance_plain (hfine : 2 ≤ f.rank) (hpositive : ∀ n ∈ interval, 1 ≤ n)
    (hinterval : ∀ n ∈ interval, (Nat.toDigits 10 n).length ≤ Integer.digitLimit)
    (hcount : ∀ n ∈ count, (Nat.toDigits 10 n).length ≤ Integer.digitLimit)
    (hparts : parts.Perm (plainParts f interval count)) (hstart : anchor.toUtc? = some start)
    (hcurrent : startsAt.toUtc? = some current) :
    IsRule dates (Text.ofChars (written parts)) (Parts.plain f (interval.getD 1) count) ∧
      ∀ rule, IsRule dates rule (Parts.plain f (interval.getD 1) count) →
        ∃ k : Nat, IsLeast {k : Nat | (current.wall.val : Int) <
            start.wall.wholeSecond.val + k * (interval.getD 1 * f.seconds) * 1000000} k ∧
          ∃ found, advance dates startsAt (some rule) (some anchor) = .ok found ∧ found ≠ .endless ∧
            found.stamp? = if ∀ c ∈ count, k < c then
              (Wall.ofMicros? (start.wall.wholeSecond.val + k * (interval.getD 1 * f.seconds) * 1000000)).map .utc
            else none := by
  refine ⟨isRule_plain hinterval hcount hparts, fun rule hrule => ?_⟩
  have hn : 1 ≤ interval.getD 1 := by
    cases interval with
    | none => exact Nat.le_refl 1
    | some n => exact hpositive n rfl
  have hr := @toRule_plain f (interval.getD 1) count hfine (.utc start.wall)
  have hplain := @Rule.isPlain_plain f (interval.getD 1) count hfine hn (.utc start.wall)
  obtain ⟨hclocked, hsame, -⟩ := toRule_ok hr
  obtain ⟨ws, halt, h⟩ := Rule.Runs.unfolds ⟨hplain.week, .inl hplain.interval⟩
  have hwhole : start.wall.wholeSecond.val % microsPerSecond = 0 := by
    unfold Wall.wholeSecond microsPerSecond
    dsimp only
    omega
  have hseconds : 0 < f.seconds := by
    cases f <;> first | decide | exact absurd hfine (by decide)
  obtain ⟨hall, hhalt⟩ := hplain.unfolds_start hwhole h
  obtain ⟨hsorted, -, -⟩ := h.orders hclocked hplain.week hplain.interval
  obtain ⟨k, hk⟩ := @exists_isLeast_passing start.wall.wholeSecond.val current.wall.val
    (interval.getD 1 * f.seconds) (Int.mul_pos (Int.natCast_pos.mpr hn) hseconds)
  have hfind := hplain.find?_eq_getElem? hsorted hall hk
  have hcounts : Counts (Rule.plain f (interval.getD 1) count (.utc start.wall)).count k ↔ ∀ c ∈ count, k < c := by
    cases count with
    | none => exact ⟨fun _ _ h => (nomatch h), fun _ _ h => (nomatch h)⟩
    | some m =>
      refine ⟨fun h c hc => ?_, fun h c hc => ?_⟩
      · cases hc
        exact Int.ofNat_lt.mp (h m rfl)
      · cases hc
        exact Int.ofNat_lt.mpr (h m rfl)
  have hvalue : (if ∀ c ∈ count, k < c then
      (Wall.ofMicros? (start.wall.wholeSecond.val + k * (interval.getD 1 * f.seconds) * 1000000)).map .utc
      else none) = (ws[k]?).map Stamp.utc := by
    rw [hall k, if_congr hcounts rfl rfl]
    split <;> rfl
  refine ⟨k, hk, ?_⟩
  rw [hrule.advance hplain.interval hstart hr h hcurrent, hfind, hvalue]
  cases ws[k]? with
  | some w => exact ⟨_, rfl, nofun, rfl⟩
  | none =>
    rcases hhalt with rfl | rfl
    · exact ⟨_, rfl, nofun, rfl⟩
    · exact ⟨_, rfl, nofun, rfl⟩

end Advancing

/-- Every other week, three times. -/
def everyOtherWeek : Text := text "COUNT=3;FREQ=WEEKLY;INTERVAL=2"

/-- After the new year, a rule of every other week goes on two weeks later. -/
theorem everyOtherWeek_next : ∃ found,
    advance onNewYear newYear (some everyOtherWeek) (some newYear) = .ok found ∧ found.stamp? =
      (Wall.ofMicros? (newYear.wall.val + 14 * 86400 * 1000000)).map .utc := by
  have hstart : newYear.toUtc? = some newYear := Stamp.toUtc?_utc _
  obtain ⟨hrule, hall⟩ := @advance_plain .weekly (some 3) onNewYear (some 2)
    [("COUNT", ['3']), ("FREQ", "WEEKLY".toList), ("INTERVAL", ['2'])] newYear newYear newYear newYear (by decide)
    (by decide) (by decide) (by decide) (by decide) hstart hstart
  have hwritten : Text.ofChars (written [("COUNT", ['3']), ("FREQ", "WEEKLY".toList), ("INTERVAL", ['2'])]) =
      everyOtherWeek := by decide
  rw [hwritten] at hrule
  obtain ⟨k, hk, found, hfound, -, hstamp⟩ := hall everyOtherWeek hrule
  have hwhole : newYear.wall.wholeSecond = newYear.wall := by decide
  rw [hwhole] at hk hstamp
  have hone : k = 1 := by
    have hpast : (newYear.wall.val : Int) < newYear.wall.val + k * (2 * 604800) * 1000000 := hk.1
    have hleast : k ≤ 1 :=
      hk.2 (show (newYear.wall.val : Int) < newYear.wall.val + 1 * (2 * 604800) * 1000000 by omega)
    omega
  rw [hone] at hstamp
  exact ⟨found, hfound, hstamp⟩

end Recurrence

end Showrunner

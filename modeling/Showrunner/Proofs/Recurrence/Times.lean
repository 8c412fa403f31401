import Mathlib.Data.List.Pairwise
import Showrunner.Proofs.Recurrence.Periods

/-!
# The times of a rule

What a rule names of hours, minutes and seconds is sorted without repetitions, and so are the times of day
that they combine to. The times of a period of an hour or less lie within the period, and those of a longer
one within a day.
-/

namespace Showrunner

namespace Recurrence

/-! ## Sorted sets -/

/-- Sorting and dropping repetitions leaves numbers in increasing order. -/
theorem pairwise_sortedSet (xs : List Int) : (sortedSet xs).Pairwise (· < ·) := by
  have hsorted : (xs.mergeSort).Pairwise (· ≤ ·) := by
    refine (List.pairwise_mergeSort (fun a b c hab hbc => ?_) (fun a b => ?_) xs).imp of_decide_eq_true
    · exact decide_eq_true (Int.le_trans (of_decide_eq_true hab) (of_decide_eq_true hbc))
    · rw [Bool.or_eq_true, decide_eq_true_eq, decide_eq_true_eq]
      exact Int.le_total a b
  unfold sortedSet
  dsimp only
  -- what is kept of the rest is increasing, and none of it lies below the rest
  suffices ∀ sorted : List Int, sorted.Pairwise (· ≤ ·) →
      (sorted.foldr (fun x acc => if acc.head? == some x then acc else x :: acc) []).Pairwise (· < ·) ∧
        ∀ y ∈ sorted.foldr (fun x acc => if acc.head? == some x then acc else x :: acc) [], y ∈ sorted from
    (this _ hsorted).1
  intro sorted hsorted
  induction sorted with
  | nil => exact ⟨.nil, fun _ h => h⟩
  | cons x rest ih =>
    obtain ⟨hle, hrest⟩ := List.pairwise_cons.mp hsorted
    obtain ⟨hkept, hmem⟩ := ih hrest
    rw [List.foldr_cons]
    split
    · exact ⟨hkept, fun y hy => List.mem_cons_of_mem _ (hmem y hy)⟩
    · next hhead =>
      refine ⟨List.pairwise_cons.mpr ⟨fun y hy => ?_, hkept⟩, fun y hy => ?_⟩
      · cases hkeep : rest.foldr (fun x acc => if acc.head? == some x then acc else x :: acc) [] with
        | nil =>
          rw [hkeep] at hy
          cases hy
        | cons z kept =>
          rw [hkeep] at hy hkept hhead
          have hne : z ≠ x := by simpa using hhead
          have hfirst : x ≤ z := hle z (hmem z (hkeep ▸ List.mem_cons_self))
          rcases List.mem_cons.mp hy with rfl | hlater
          · omega
          · have := (List.pairwise_cons.mp hkept).1 y hlater
            omega
      · rcases List.mem_cons.mp hy with rfl | hlater
        · exact List.mem_cons_self
        · exact List.mem_cons_of_mem _ (hmem y hlater)

/-- What a rule names of a part of the time of day is in increasing order. -/
theorem pairwise_timeValues {given : Option (List Int)} {interval start cycle : Int} {same finer : Bool}
    {values : List Int} (h : timeValues given interval start cycle same finer = .ok values) :
    values.Pairwise (· < ·) := by
  unfold timeValues at h
  split at h
  · cases h
    split
    · exact List.pairwise_singleton _ _
    · exact .nil
  · split at h
    · dsimp only at h
      split at h
      · cases h
      · cases h
        exact pairwise_sortedSet _
    · cases h
      exact pairwise_sortedSet _

/-! ## Times of day -/

/-- Steps over numbers in increasing order, each of which gives times in increasing order, later ones for a
later number, give times in increasing order. -/
theorem pairwise_flatMap_mapM {β : Type} {f : Int → Except Halt β} {times : β → List Nat}
    {P : Int → Nat → Prop}
    (hf : ∀ {n b}, f n = .ok b → (times b).Pairwise (· < ·) ∧ ∀ t ∈ times b, P n t)
    (hP : ∀ {m n s t}, m < n → P m s → P n t → s < t) {numbers : List Int} {results : List β}
    (hnumbers : numbers.Pairwise (· < ·)) (h : numbers.mapM f = .ok results) :
    (results.flatMap times).Pairwise (· < ·) ∧ ∀ t ∈ results.flatMap times, ∃ n ∈ numbers, P n t := by
  induction numbers generalizing results with
  | nil =>
    cases h
    exact ⟨.nil, fun _ ht => nomatch ht⟩
  | cons n rest ih =>
    rw [List.mapM_cons] at h
    obtain ⟨b, hb, h⟩ := bind_eq_ok.mp h
    obtain ⟨rests, hrests, h⟩ := bind_eq_ok.mp h
    cases h
    obtain ⟨hfirst, hrest⟩ := List.pairwise_cons.mp hnumbers
    obtain ⟨hsorted, hmem⟩ := hf hb
    obtain ⟨hsorted', hmem'⟩ := ih hrest hrests
    rw [List.flatMap_cons]
    refine ⟨List.pairwise_append.mpr ⟨hsorted, hsorted', fun s hs t ht => ?_⟩, fun t ht => ?_⟩
    · obtain ⟨n', hn', hP'⟩ := hmem' t ht
      exact hP (hfirst n' hn') (hmem s hs) hP'
    · rcases List.mem_append.mp ht with ht | ht
      · exact ⟨n, List.mem_cons_self, hmem t ht⟩
      · obtain ⟨n', hn', hP'⟩ := hmem' t ht
        exact ⟨n', List.mem_cons_of_mem _ hn', hP'⟩

/-- A time of day is that of its hour, its minute and its second. -/
theorem timeOfDay_ok {hour minute second : Int} {time : Nat} (h : timeOfDay hour minute second = .ok time) :
    (time : Int) = (hour * 60 + minute) * 60 + second ∧ (0 ≤ hour ∧ hour < 24) ∧
      (0 ≤ minute ∧ minute < 60) ∧ 0 ≤ second ∧ second < 60 := by
  unfold timeOfDay at h
  split at h
  · cases h
    omega
  · cases h

/-- The times of day that sorted parts combine to are in increasing order, and each is the time of an hour, a
minute and a second of the parts. -/
theorem timesOfDay_ok {hours minutes seconds : List Int} {times : List Nat}
    (hhours : hours.Pairwise (· < ·)) (hminutes : minutes.Pairwise (· < ·))
    (hseconds : seconds.Pairwise (· < ·)) (h : timesOfDay hours minutes seconds = .ok times) :
    times.Pairwise (· < ·) ∧ ∀ t ∈ times, ∃ hour ∈ hours, ∃ minute ∈ minutes, ∃ second ∈ seconds,
      timeOfDay hour minute second = .ok t := by
  obtain ⟨ofHours, hofHours, h⟩ := bind_eq_ok.mp h
  -- the seconds of a minute, then the minutes of an hour, then the hours
  have hminute : ∀ {hour minute : Int} {ofMinute : List Nat},
      (seconds.mapM fun second => timeOfDay hour minute second) = .ok ofMinute →
      ofMinute.Pairwise (· < ·) ∧ ∀ t ∈ ofMinute, ∃ second ∈ seconds, timeOfDay hour minute second = .ok t := by
    intro hour minute ofMinute hof
    have hsecond := @pairwise_flatMap_mapM _ _ (fun t => [t]) (fun second t => timeOfDay hour minute second = .ok t)
      (fun hb => ⟨List.pairwise_singleton _ _, fun t ht => List.mem_singleton.mp ht ▸ hb⟩)
      (fun hlt hs ht => by have := timeOfDay_ok hs; have := timeOfDay_ok ht; omega) _ _ hseconds hof
    rwa [List.flatMap_singleton'] at hsecond
  have hhour : ∀ {hour : Int} {ofHour : List (List Nat)},
      (minutes.mapM fun minute => seconds.mapM fun second => timeOfDay hour minute second) = .ok ofHour →
      ofHour.flatten.Pairwise (· < ·) ∧ ∀ t ∈ ofHour.flatten, ∃ minute ∈ minutes, ∃ second ∈ seconds,
        timeOfDay hour minute second = .ok t := by
    intro hour ofHour hof
    rw [← List.flatMap_id']
    refine pairwise_flatMap_mapM hminute ?_ hminutes hof
    rintro m n s t hlt ⟨_, -, hs⟩ ⟨_, -, ht⟩
    have := timeOfDay_ok hs
    have := timeOfDay_ok ht
    omega
  have hday : (ofHours.flatMap List.flatten).Pairwise (· < ·) ∧ ∀ t ∈ ofHours.flatMap List.flatten,
      ∃ hour ∈ hours, ∃ minute ∈ minutes, ∃ second ∈ seconds, timeOfDay hour minute second = .ok t := by
    refine pairwise_flatMap_mapM hhour ?_ hhours hofHours
    rintro m n s t hlt ⟨_, -, _, -, hs⟩ ⟨_, -, _, -, ht⟩
    have := timeOfDay_ok hs
    have := timeOfDay_ok ht
    omega
  rw [List.flatMap_def, ← List.flatten_flatten] at hday
  cases h
  rw [List.mergeSort_of_pairwise (hday.1.imp fun {a b} hlt => decide_eq_true (Nat.le_of_lt hlt))]
  exact hday

/-! ## Times of periods -/

variable {r : Rule}

/-- What a rule names of minutes and seconds is in increasing order, and so are the times of its days, which lie
within a day. -/
structure Rule.Clocked (r : Rule) : Prop where
  minutes : r.minutes.Pairwise (· < ·)
  seconds : r.seconds.Pairwise (· < ·)
  dayTimes : r.dayTimes.Pairwise (· < ·)
  within : ∀ t ∈ r.dayTimes, t < 86400

/-- A rule that is made of parts is clocked. It starts at the whole second of its start, and it has the
frequency, the interval, the first day of a week, the count and the last moment of the parts. -/
theorem toRule_ok {p : Parts} {start : Moment} (h : p.toRule start = .ok r) :
    r.Clocked ∧ r.start = { start with wall := start.wall.wholeSecond } ∧ r.frequency = p.frequency ∧
      r.interval = p.interval ∧ r.weekStart = p.weekStart ∧ r.count = p.count ∧ r.til = p.til := by
  unfold Parts.toRule at h
  dsimp only at h
  split at h
  · cases h
  · split at h
    · cases h
    · obtain ⟨hours, hhours, h⟩ := bind_eq_ok.mp h
      obtain ⟨minutes, hminutes, h⟩ := bind_eq_ok.mp h
      obtain ⟨seconds, hseconds, h⟩ := bind_eq_ok.mp h
      have hsorted := pairwise_timeValues hhours
      have hsorted' := pairwise_timeValues hminutes
      have hsorted'' := pairwise_timeValues hseconds
      split at h
      · obtain ⟨dayTimes, hdayTimes, h⟩ := bind_eq_ok.mp h
        cases h
        obtain ⟨htimes, hmem⟩ := timesOfDay_ok hsorted hsorted' hsorted'' hdayTimes
        refine ⟨⟨hsorted', hsorted'', htimes, fun t ht => ?_⟩, rfl, rfl, rfl, rfl, rfl, rfl⟩
        obtain ⟨_, -, _, -, _, -, htime⟩ := hmem t ht
        have := timeOfDay_ok htime
        omega
      · cases h
        exact ⟨⟨hsorted', hsorted'', .nil, fun _ ht => nomatch ht⟩, rfl, rfl, rfl, rfl, rfl, rfl⟩

/-- The times of a period within a day are in increasing order, and they lie within the day and within the
hour, the minute or the second of the period. -/
theorem Rule.periodTimes_ok {hour minute second : Int} {times : List Nat} (hclocked : r.Clocked)
    (hrank : 4 ≤ r.frequency.rank) (hminute : 0 ≤ minute ∧ minute < 60) (hsecond : 0 ≤ second ∧ second < 60)
    (h : r.periodTimes hour minute second = .ok times) :
    times.Pairwise (· < ·) ∧ ∀ t ∈ times, t < 86400 ∧
      (t : Int) / r.frequency.seconds = ((hour * 60 + minute) * 60 + second) / r.frequency.seconds := by
  have hsingle : ∀ n : Int, [n].Pairwise (· < ·) := List.pairwise_singleton _
  unfold periodTimes at h
  cases hfrequency : r.frequency <;> simp only [hfrequency] at h hrank <;> dsimp only [Frequency.seconds]
  case hourly =>
    obtain ⟨hsorted, hmem⟩ := timesOfDay_ok (hsingle hour) hclocked.minutes hclocked.seconds h
    refine ⟨hsorted, fun t ht => ?_⟩
    obtain ⟨_, hhour, _, -, _, -, htime⟩ := hmem t ht
    cases List.mem_singleton.mp hhour
    have := timeOfDay_ok htime
    omega
  case minutely =>
    obtain ⟨hsorted, hmem⟩ := timesOfDay_ok (hsingle hour) (hsingle minute) hclocked.seconds h
    refine ⟨hsorted, fun t ht => ?_⟩
    obtain ⟨_, hhour, _, hminute', _, -, htime⟩ := hmem t ht
    cases List.mem_singleton.mp hhour
    cases List.mem_singleton.mp hminute'
    have := timeOfDay_ok htime
    omega
  case secondly =>
    obtain ⟨hsorted, hmem⟩ := timesOfDay_ok (hsingle hour) (hsingle minute) (hsingle second) h
    refine ⟨hsorted, fun t ht => ?_⟩
    obtain ⟨_, hhour, _, hminute', _, hsecond', htime⟩ := hmem t ht
    cases List.mem_singleton.mp hhour
    cases List.mem_singleton.mp hminute'
    cases List.mem_singleton.mp hsecond'
    have := timeOfDay_ok htime
    omega
  all_goals exact absurd hrank (by decide)

end Recurrence

end Showrunner

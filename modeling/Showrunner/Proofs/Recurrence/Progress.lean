import Showrunner.Proofs.Recurrence.Merging
import Showrunner.Recurrence.Advance

/-!
# Progress of a recurrence

The occurrence that follows a start lies strictly after it, whatever the rule is. The occurrences
of a rule are what is reached from its anchor by going from each occurrence to the one that
follows; they come one after another in time, so that none is met twice. The dates of the rule may be
read in another way each time.

A start that is moved to universal time has the same occurrence after it. A plan keeps its starts
in universal time and its occurrences are those of the rule all the same.
-/

namespace Showrunner

namespace Recurrence

/-- A search that finds an occurrence finds one after the moment. -/
theorem before_of_searchAfter {moment : Moment} {t : Stamp} {last : Option Moment} {steps : Nat}
    {parts excepted : List Part} (h : searchAfter moment last steps parts excepted = .ok t) :
    ∃ m : Moment, t = m.stamp ∧ moment.before m = true := by
  induction steps generalizing last parts excepted with
  | zero => cases parts <;> cases h
  | succ steps ih =>
    cases parts with
    | nil => cases h
    | cons p rest =>
      unfold searchAfter at h
      split at h
      · obtain ⟨parts', -, h⟩ := bind_eq_ok.mp h
        exact ih h
      · obtain ⟨excepted', -, h⟩ := bind_eq_ok.mp h
        simp only at h
        split at h
        · cases h
        · split at h
          · next hbefore =>
            cases h
            exact ⟨p.head, rfl, (Bool.and_eq_true_iff.mp hbefore).2⟩
          · obtain ⟨parts', -, h⟩ := bind_eq_ok.mp h
            exact ih h

/-- A search that stops without its result does not stop with an occurrence. -/
def Unfound {α : Type} (search : Search α) : Prop := ∀ t, search ≠ .error (.next t)

/-- A search that has its result has not stopped. -/
theorem unfound_ok {α : Type} (a : α) : Unfound (.ok a) := by
  intro t h
  cases h

/-- A search that stops for another reason has found nothing. -/
theorem unfound_error {α : Type} {found : Found} (hfound : ∀ t, found ≠ .next t) :
    Unfound (α := α) (.error found) := by
  intro t h
  cases h
  exact hfound t rfl

/-- A search that halts has found nothing. -/
theorem unfound_halt {α : Type} (halt : Halt) : Unfound (α := α) (.error (.halt halt)) :=
  unfound_error (by intro t h; cases h)

/-- A search that does not end has found nothing. -/
theorem unfound_endless {α : Type} : Unfound (α := α) (.error .endless) :=
  unfound_error (by intro t h; cases h)

/-- A search for which nothing is left has found nothing. -/
theorem unfound_none {α : Type} : Unfound (α := α) (.error .none) :=
  unfound_error (by intro t h; cases h)

/-- A chain of two searches stops where one of them does. -/
theorem unfound_bind {α β : Type} {first : Search α} {second : α → Search β} (hfirst : Unfound first)
    (hsecond : ∀ a, Unfound (second a)) : Unfound (first >>= second) := by
  cases first with
  | ok a => exact hsecond a
  | error found =>
    refine unfound_error fun t h => hfirst t ?_
    rw [h]

/-- A step that halts ends the search without an occurrence. -/
theorem unfound_halting {α : Type} (m : Except Halt α) : Unfound (m.mapError .halt) := by
  cases m with
  | ok a => exact unfound_ok a
  | error halt => exact unfound_halt halt

/-- Searching each value of a list in turn stops where one of the searches does. -/
theorem unfound_mapM {α β : Type} {search : α → Search β} (hsearch : ∀ a, Unfound (search a))
    (values : List α) : Unfound (values.mapM search) := by
  induction values with
  | nil => exact unfound_ok []
  | cons a rest ih =>
    rw [List.mapM_cons]
    exact unfound_bind (hsearch a) fun b => unfound_bind ih fun bs => unfound_ok (b :: bs)

/-- Beginning the parts of a merge finds nothing yet. -/
theorem unfound_beginParts (dates : List Moment) (rules : List Rule) :
    Unfound (beginParts dates rules) := by
  unfold beginParts
  refine unfound_bind (unfound_halting _) fun dates => unfound_bind ?_ fun first => ?_
  · beta_reduce
    split
    · exact unfound_ok _
    · exact unfound_ok _
    · exact unfound_endless
    · exact unfound_halt _
  refine unfound_bind (unfound_mapM (fun r => ?_) rules) fun rest => unfound_ok _
  refine unfound_bind (unfound_halting _) fun series => ?_
  beta_reduce
  split
  · exact unfound_ok _
  · exact unfound_ok _
  · exact unfound_endless
  · exact unfound_halt _

/-- Taking the occurrence of a part finds nothing yet. -/
theorem unfound_stepParts (p : Part) (rest : List Part) : Unfound (stepParts p rest) := by
  unfold stepParts
  split
  · exact unfound_halting _
  · exact unfound_halting _
  · exact unfound_endless
  · exact unfound_halt _

/-- Passing over what is left out finds nothing yet. -/
theorem unfound_passBefore (m : Moment) (steps : Nat) (parts : List Part) :
    Unfound (passBefore m steps parts) := by
  induction steps generalizing parts with
  | zero =>
    cases parts with
    | nil => exact unfound_ok []
    | cons p rest => exact unfound_endless
  | succ steps ih =>
    cases parts with
    | nil => exact unfound_ok []
    | cons p rest =>
      unfold passBefore
      split
      · exact unfound_halt _
      · split
        · exact unfound_bind (unfound_stepParts p rest) ih
        · exact unfound_ok _

/-- A search for an occurrence that stops without one found none. -/
theorem unfound_searchAfter (moment : Moment) (last : Option Moment) (steps : Nat)
    (parts excepted : List Part) : Unfound (searchAfter moment last steps parts excepted) := by
  induction steps generalizing last parts excepted with
  | zero =>
    cases parts with
    | nil => exact unfound_none
    | cons p rest => exact unfound_endless
  | succ steps ih =>
    cases parts with
    | nil => exact unfound_none
    | cons p rest =>
      unfold searchAfter
      split
      · exact unfound_bind (unfound_stepParts p rest) fun parts' => ih _ _ _
      · refine unfound_bind (unfound_passBefore _ _ _) fun excepted' => ?_
        simp only
        split
        · exact unfound_halt _
        · split
          · exact unfound_ok _
          · exact unfound_bind (unfound_stepParts p rest) fun parts' => ih _ _ _

/-- The occurrence that a set has after a moment lies after it. -/
theorem before_of_after {set : RuleSet} {moment : Moment} {t : Stamp} (h : set.after moment = .next t) :
    ∃ m : Moment, t = m.stamp ∧ moment.before m = true := by
  unfold RuleSet.after at h
  simp only at h
  split at h
  · next found hfound =>
    cases h
    simp only [bind_eq_ok] at hfound
    obtain ⟨_, _, _, _, _, _, _, _, hsearch⟩ := hfound
    exact before_of_searchAfter hsearch
  · next found hfound =>
    subst h
    refine absurd hfound (unfound_bind (unfound_beginParts _ _) (fun parts => ?_) t)
    refine unfound_bind (unfound_beginParts _ _) fun excepted => ?_
    refine unfound_bind (unfound_halting _) fun parts => ?_
    exact unfound_bind (unfound_halting _) fun excepted => unfound_searchAfter _ _ _ _ _

variable {dates : Dates}

/-- The next occurrence after a reading of universal time lies after it. -/
theorem instant_lt_of_advanceUtc {current start : Wall} {t : Stamp} {rule : Text}
    (h : advanceUtc dates current start rule = .ok (.next t)) : (current.val : Int) < t.instant := by
  unfold advanceUtc at h
  simp only at h
  split at h
  · next t' hfound =>
    cases h
    split at hfound
    · obtain ⟨m, rfl, hbefore⟩ := before_of_after hfound
      rw [Moment.before_utc_left] at hbefore
      exact of_decide_eq_true hbefore
    · cases hfound
  all_goals cases h

/-- The next occurrence of a plan lies after its latest start. -/
theorem instant_lt_of_advance {startsAt t : Stamp} {rule : Option Text} {anchor : Option Stamp}
    (h : advance dates startsAt rule anchor = .ok (.next t)) : startsAt.instant < t.instant := by
  unfold advance at h
  split at h
  · cases h
  · next rule =>
    split at h
    · cases h
    · obtain ⟨current, hcurrent, h⟩ := bind_eq_ok.mp h
      have hutc : ∃ start, advanceUtc dates current.wall start rule = .ok (.next t) := by
        cases anchor with
        | none => exact ⟨current.wall, h⟩
        | some anchor =>
          obtain ⟨start, -, h⟩ := bind_eq_ok.mp h
          exact ⟨start.wall, h⟩
      obtain ⟨start, hnext⟩ := hutc
      rw [← (Stamp.toUtc?_some (Stamp.toUtc_ok.mp hcurrent)).2]
      exact instant_lt_of_advanceUtc hnext

/-- A start that is moved to universal time has the same occurrence after it. -/
theorem advance_toUtc? {startsAt moved : Stamp} (h : startsAt.toUtc? = some moved)
    (rule : Option Text) (anchor : Stamp) :
    advance dates moved rule (some anchor) = advance dates startsAt rule (some anchor) := by
  have hmoved : moved.toUtc = startsAt.toUtc := by
    obtain ⟨hutc, -⟩ := Stamp.toUtc?_some h
    rw [Stamp.toUtc_ok.mpr h, hutc]
    exact Stamp.toUtc_utc _
  unfold advance
  rw [hmoved]

/-- The occurrence of a plan that follows one, by a reading of dates. -/
def following (rule : Option Text) (anchor s : Stamp) (dates : Dates) : Option Stamp :=
  (advance dates s rule (some anchor)).toOption.bind Advance.stamp?

/-- The occurrence of a plan to which readings of dates lead: its anchor, and from each occurrence the one
that follows by the next reading. -/
def occurrence (rule : Option Text) (anchor : Stamp) (readings : List Dates) : Option Stamp :=
  readings.foldlM (following rule anchor) anchor

section Occurrences

variable {rule : Option Text} {anchor s t : Stamp} {readings : List Dates}

/-- One more reading leads to the occurrence that follows. -/
theorem occurrence_concat (rule : Option Text) (anchor : Stamp) (readings : List Dates) (dates : Dates) :
    occurrence rule anchor (readings ++ [dates]) =
      (occurrence rule anchor readings).bind fun s => following rule anchor s dates := by
  rw [occurrence, List.foldlM_append]
  refine congrArg (occurrence rule anchor readings).bind (funext fun s => ?_)
  simp only [List.foldlM_cons, List.foldlM_nil, bind_pure]

/-- An occurrence that follows another one lies after it. -/
theorem instant_lt_of_following (h : following rule anchor s dates = some t) : s.instant < t.instant := by
  obtain ⟨found, hfound, hstamp⟩ := Option.bind_eq_some_iff.mp h
  cases found <;> cases hstamp
  exact instant_lt_of_advance (toOption_eq_some.mp hfound)

/-- Occurrences lie in the order of the readings that lead to them. -/
theorem occurrence_strictMono {m n : Nat} (hlt : m < n) (hn : n ≤ readings.length)
    (hs : occurrence rule anchor (readings.take m) = some s)
    (ht : occurrence rule anchor (readings.take n) = some t) : s.instant < t.instant := by
  induction n generalizing t with
  | zero => omega
  | succ n ih =>
    rw [List.take_add_one, List.getElem?_eq_getElem (by omega), Option.toList_some, occurrence_concat] at ht
    obtain ⟨between, hbetween, hnext⟩ := Option.bind_eq_some_iff.mp ht
    have hlast := instant_lt_of_following hnext
    by_cases heq : m = n
    · subst heq
      cases hs.symm.trans hbetween
      exact hlast
    · exact Int.lt_trans (ih (by omega) (by omega) hbetween) hlast

end Occurrences

end Recurrence

end Showrunner

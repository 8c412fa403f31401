import Showrunner.Proofs.Recurrence.Periods
import Showrunner.Proofs.Recurrence.Progress
import Showrunner.Recurrence.DateText

/-!
# The end of a search for an occurrence

A search for the next occurrence ends if every rule of its set moves. Each occurrence that is taken is a
date, or a candidate of a period, and there are only so many of them: the candidates of the current period of
each series, and for each period that may still be looked at as many as a period can have. An interval of
zero does not move, and a search among its occurrences may never end.
-/

namespace Showrunner

namespace Recurrence

variable {r : Rule} {c : Cursor}

/-! ## A series -/

/-- How many occurrences a series may still have. -/
def Series.left (s : Series) : Nat := s.pending.length + s.periodsLeft * s.rule.mostCandidates

/-- A series stands at a sound period of a rule that moves, and may look at all periods that follow. -/
structure Series.Ends (s : Series) : Prop where
  week : s.rule.weekStart < 7
  moves : s.rule.Moves
  sound : s.cursor.Sound s.rule
  candidates : ∃ pending, s.rule.candidates s.cursor = .ok (pending, s.filtered)
  periods : s.rule.periodsAfter s.cursor < s.periodsLeft

/-- The candidates of a sound period are no more than a period can have. -/
theorem Rule.length_candidates_le {pending : List Candidate} {filtered : Bool} (hsound : c.Sound r)
    (h : r.candidates c = .ok (pending, filtered)) : pending.length ≤ r.mostCandidates := by
  have hcount := (candidates_ok hsound.frame_length_le h).1
  exact hcount.trans (Nat.add_le_add_right (Nat.mul_le_mul_left _ hsound.times) _)

/-- A series that begins may look at all its periods. -/
theorem Rule.ends_series {s : Series} (hweek : r.weekStart < 7) (hmoves : r.Moves) (h : r.series = .ok s) :
    s.Ends ∧ s.left ≤ r.occurrenceLimit := by
  obtain ⟨c, hopening, h⟩ := bind_eq_ok.mp h
  obtain ⟨⟨pending, filtered⟩, hcandidates, h⟩ := bind_eq_ok.mp h
  cases h
  have hsound := sound_opening hopening
  refine ⟨⟨hweek, hmoves, hsound, ⟨pending, hcandidates⟩, hmoves.periodsAfter_lt hsound hcandidates⟩, ?_⟩
  have hcount := length_candidates_le hsound hcandidates
  rw [Series.left, occurrenceLimit, Nat.succ_mul]
  dsimp only
  omega

/-- A candidate that is picked is taken away. -/
theorem length_of_pick {countLeft countLeft' : Option Int} {pending rest : List Candidate} {w : Wall}
    (h : pick r countLeft pending = .occurrence w rest countLeft') : rest.length < pending.length := by
  induction pending with
  | nil => cases h
  | cons candidate pending ih =>
    cases candidate with
    | none => cases h
    | some v =>
      unfold pick at h
      split at h
      · cases h
      · split at h
        · cases h
        · split at h
          · exact Nat.lt_succ_of_lt (ih h)
          · split at h
            · split at h <;> cases h
              exact Nat.lt_succ_self _
            · cases h
              exact Nat.lt_succ_self _

/-- What a series gives next is an occurrence, behind which it has fewer left, or the series is over. -/
def Next.Ends (left : Nat) : Next → Prop
  | .occurrence _ rest => rest.Ends ∧ rest.left < left
  | .endless => False
  | .finished | .halt _ => True

/-- A series with fewer occurrences left has no more than another number of them. -/
theorem Next.Ends.mono {left left' : Nat} {next : Next} (h : next.Ends left) (hle : left ≤ left') :
    next.Ends left' := by
  cases next with
  | occurrence w rest => exact ⟨h.1, h.2.trans_le hle⟩
  | finished => trivial
  | endless => exact h
  | halt halt => trivial

/-- What a series gives next, after some periods, is an occurrence, or the series is over. -/
theorem ends_advanceFrom {periods : Nat} {pending : List Candidate} {filtered : Bool} {countLeft : Option Int}
    (h : Series.Ends ⟨r, pending, c, filtered, countLeft, periods⟩) :
    (Series.advanceFrom r countLeft periods pending c filtered).Ends
      (pending.length + periods * r.mostCandidates) := by
  obtain ⟨hweek, hmoves, hsound, hcandidates, hperiods⟩ := h
  dsimp only at hweek hmoves hsound hcandidates hperiods
  -- Fewer periods follow the next period, so one is left to look at for each of them.
  induction periods generalizing pending c filtered with
  | zero => exact absurd hperiods (Nat.not_lt_zero _)
  | succ periods ih =>
    rw [Series.advanceFrom]
    split
    · next w rest countLeft' hpick =>
      refine ⟨⟨hweek, hmoves, hsound, hcandidates, hperiods⟩, ?_⟩
      exact Nat.add_lt_add_right (length_of_pick hpick) _
    · trivial
    · trivial
    · split
      · trivial
      · trivial
      · next c' hnext =>
        split
        · trivial
        · next pending' filtered' hcandidates' =>
          obtain ⟨_, hcurrent⟩ := hcandidates
          obtain ⟨hsound', hfewer⟩ :=
            hmoves.periodsAfter_nextPeriod hweek hsound hcurrent hnext hcandidates'
          have hcount := Rule.length_candidates_le hsound' hcandidates'
          refine (@ih c' pending' filtered' hsound' ⟨pending', hcandidates'⟩ (by omega)).mono ?_
          rw [Nat.succ_mul]
          omega

/-! ## A merge -/

/-- How many occurrences dates or a series may still have. -/
def leftBehind : List Moment ⊕ Series → Nat
  | .inl dates => dates.length
  | .inr series => series.left

/-- Dates end, and a series ends if it may look at all its periods. -/
def EndsBehind : List Moment ⊕ Series → Prop
  | .inl _ => True
  | .inr series => series.Ends

/-- Parts of a merge end, and they have no more occurrences than a number, those at their heads included. -/
structure PartsEnd (left : Nat) (parts : List Part) : Prop where
  ends : ∀ p ∈ parts, EndsBehind p.tail
  left : (parts.map fun p => leftBehind p.tail + 1).sum ≤ left

/-- Where nothing is left, no part is. -/
theorem PartsEnd.pos {left : Nat} {p : Part} {parts : List Part} (h : PartsEnd left (p :: parts)) :
    0 < left := by
  have hleft := h.left
  rw [List.map_cons, List.sum_cons] at hleft
  omega

/-- Parts of a merge may come in any order. -/
theorem PartsEnd.perm {left : Nat} {parts parts' : List Part} (h : PartsEnd left parts)
    (hperm : parts'.Perm parts) : PartsEnd left parts' :=
  ⟨fun p hp => h.ends p (hperm.mem_iff.mp hp), ((hperm.map _).sum_eq.trans_le h.left)⟩

/-- What becomes of a part when its occurrence is taken is a part with fewer occurrences, or the part is
over. -/
theorem moved_cases {tail : List Moment ⊕ Series} (h : EndsBehind tail) :
    (∃ p, moved tail = .part p ∧ EndsBehind p.tail ∧ leftBehind p.tail + 1 ≤ leftBehind tail) ∨
      moved tail = .finished ∨ ∃ halt, moved tail = .halt halt := by
  match tail with
  | .inl [] => exact .inr (.inl rfl)
  | .inl (s :: rest) => exact .inl ⟨⟨s, .inl rest⟩, rfl, trivial, Nat.le_refl _⟩
  | .inr series =>
    have hnext : (Series.next series).Ends series.left := ends_advanceFrom h
    unfold moved
    dsimp only
    split
    · next w rest hoccurrence =>
      rw [hoccurrence] at hnext
      exact .inl ⟨_, rfl, hnext.1, hnext.2⟩
    · exact .inr (.inl rfl)
    · next hendless =>
      rw [hendless] at hnext
      exact hnext.elim
    · next halt _ => exact .inr (.inr ⟨halt, rfl⟩)

/-- A search is over for a reason, or it goes on with a value of which something holds. -/
def Settles {α : Type} (Q : α → Prop) : Search α → Prop
  | .ok a => Q a
  | .error found => found ≠ .endless

section Settling

variable {α β : Type} {Q : α → Prop} {search : Search α}

/-- A search that settles is not endless. -/
theorem Settles.ne_endless (h : Settles Q search) : search ≠ .error .endless := by
  rintro rfl
  exact h rfl

/-- A search settles with all that follows. -/
theorem Settles.mono {Q' : α → Prop} (h : Settles Q search) (himp : ∀ a, Q a → Q' a) :
    Settles Q' search := by
  cases search with
  | ok a => exact himp a h
  | error found => exact h

/-- A chain of two searches settles if both do. -/
theorem Settles.bind {Q' : β → Prop} {next : α → Search β} (h : Settles Q search)
    (hnext : ∀ a, Q a → Settles Q' (next a)) : Settles Q' (search >>= next) := by
  cases search with
  | ok a => exact hnext a h
  | error found => exact h

/-- A search that finds nothing settles. -/
theorem settles_none : Settles Q (.error .none) := by
  intro h
  cases h

/-- A search that halts settles. -/
theorem settles_halt (halt : Halt) : Settles Q (.error (.halt halt)) := by
  intro h
  cases h

/-- A step that may halt settles with its result. -/
theorem settles_halting {m : Except Halt α} (h : ∀ a, m = .ok a → Q a) : Settles Q (m.mapError .halt) := by
  cases m with
  | ok a => exact h a rfl
  | error halt => exact settles_halt halt

end Settling

/-- What a step of a heap comes to settles, if it keeps the parts. -/
theorem settles_heap {left : Nat} {parts : List Part} {m : Except Halt (List Part)} (h : PartsEnd left parts)
    (hm : Comes (fun h : Halt => h = .unusable) (fun heap => heap.Perm parts) m) :
    Settles (PartsEnd left) (m.mapError .halt) :=
  settles_halting fun heap hheap => h.perm ((comes_iff.mp hm).1 heap hheap)

/-- Parts are put in order. -/
theorem settles_orderParts {left : Nat} {parts : List Part} (h : PartsEnd left parts) :
    Settles (PartsEnd left) (orderParts parts) :=
  settles_heap h (Heap.comes_build comes_precedes parts)

/-- The occurrence of the first part is taken, and fewer are left. -/
theorem settles_stepParts {left : Nat} {p : Part} {rest : List Part} (h : PartsEnd (left + 1) (p :: rest)) :
    Settles (PartsEnd left) (stepParts p rest) := by
  have hrest : ∀ q ∈ rest, EndsBehind q.tail := fun q hq => h.ends q (List.mem_cons_of_mem _ hq)
  have hleft := h.left
  rw [List.map_cons, List.sum_cons] at hleft
  unfold stepParts
  rcases moved_cases (h.ends p (List.mem_cons_self ..)) with
    ⟨next, hmoved, hends, hfewer⟩ | hmoved | ⟨halt, hmoved⟩
  · rw [hmoved]
    refine settles_heap ⟨List.forall_mem_cons.mpr ⟨hends, hrest⟩, ?_⟩ (Heap.comes_replace comes_precedes next rest)
    rw [List.map_cons, List.sum_cons]
    omega
  · rw [hmoved]
    exact settles_heap ⟨hrest, by omega⟩ (Heap.comes_pop comes_precedes rest)
  · rw [hmoved]
    exact settles_halt halt

/-- Passing over what is left out ends. -/
theorem settles_passBefore {left steps : Nat} {parts : List Part} (m : Moment) (h : PartsEnd left parts)
    (hsteps : left ≤ steps) : Settles (PartsEnd left) (passBefore m steps parts) := by
  induction steps generalizing left parts with
  | zero =>
    cases parts with
    | nil => exact h
    | cons p rest => exact absurd h.pos (by omega)
  | succ steps ih =>
    cases parts with
    | nil => exact h
    | cons p rest =>
      obtain ⟨left, rfl⟩ := Nat.exists_eq_succ_of_ne_zero h.pos.ne'
      unfold passBefore
      split
      · exact settles_halt _
      · split
        · refine (settles_stepParts h).bind fun parts hparts => ?_
          exact (ih hparts (by omega)).mono fun _ h => ⟨h.ends, h.left.trans (Nat.le_succ _)⟩
        · exact h

/-- A search among parts that end is over after as many steps as they have occurrences. -/
theorem settles_searchAfter {left except steps : Nat} {parts excepted : List Part} (moment : Moment)
    (last : Option Moment) (hparts : PartsEnd left parts) (hexcepted : PartsEnd except excepted)
    (hsteps : left + except ≤ steps) :
    Settles (fun _ => True) (searchAfter moment last steps parts excepted) := by
  -- Each step takes an occurrence of a part; passing over what is left out takes only of the others.
  induction steps generalizing left except last parts excepted with
  | zero =>
    cases parts with
    | nil => exact settles_none
    | cons p rest => exact absurd hparts.pos (by omega)
  | succ steps ih =>
    cases parts with
    | nil => exact settles_none
    | cons p rest =>
      obtain ⟨left, rfl⟩ := Nat.exists_eq_succ_of_ne_zero hparts.pos.ne'
      unfold searchAfter
      split
      · exact (settles_stepParts hparts).bind fun parts' h => ih _ h hexcepted (by omega)
      · refine (settles_passBefore p.head hexcepted (by omega)).bind fun excepted' hexcepted' => ?_
        dsimp only
        split
        · exact settles_halt _
        · split
          · trivial
          · exact (settles_stepParts hparts).bind fun parts' h => ih _ h hexcepted' (by omega)

/-! ## A set -/

/-- A rule begins its weeks on a day of the week, and it moves. -/
def Rule.Runs (r : Rule) : Prop := r.weekStart < 7 ∧ r.Moves

/-- Moments that are put in order are as many as before. -/
theorem length_sortMoments {dates sorted : List Moment} (h : sortMoments dates = .ok sorted) :
    sorted.length = dates.length := by
  unfold sortMoments at h
  split at h
  · cases h
    rfl
  · split at h
    · cases h
      exact List.length_mergeSort _
    · cases h

/-- Nothing is left of no parts. -/
theorem partsEnd_nil (left : Nat) : PartsEnd left [] :=
  ⟨List.forall_mem_nil _, Nat.zero_le _⟩

/-- Parts may be put together. -/
theorem PartsEnd.append {left left' : Nat} {parts parts' : List Part} (h : PartsEnd left parts)
    (h' : PartsEnd left' parts') : PartsEnd (left + left') (parts ++ parts') :=
  ⟨List.forall_mem_append.mpr ⟨h.ends, h'.ends⟩, by
    rw [List.map_append, List.sum_append]
    exact Nat.add_le_add h.left h'.left⟩

/-- The part that begins dates or a series, if they have an occurrence. -/
def beginPart (tail : List Moment ⊕ Series) : Search (List Part) :=
  match moved tail with
  | .part p => .ok [p]
  | .finished => .ok []
  | .endless => .error .endless
  | .halt h => .error (.halt h)

/-- Dates, and a series that may look at all its periods, begin with all their occurrences. -/
theorem settles_beginPart {tail : List Moment ⊕ Series} (h : EndsBehind tail) :
    Settles (PartsEnd (leftBehind tail)) (beginPart tail) := by
  unfold beginPart
  rcases moved_cases h with ⟨p, hmoved, hends, hfewer⟩ | hmoved | ⟨halt, hmoved⟩
  · rw [hmoved]
    exact ⟨List.forall_mem_singleton.mpr hends, hfewer⟩
  · rw [hmoved]
    exact partsEnd_nil _
  · rw [hmoved]
    exact settles_halt halt

/-- The series of rules that run begin with all that the rules allow. -/
theorem settles_beginSeries {rules : List Rule} (h : ∀ r ∈ rules, r.Runs) :
    Settles (fun parts => PartsEnd (rules.map Rule.occurrenceLimit).sum parts.flatten)
      (rules.mapM fun r => do beginPart (.inr (← r.series.mapError .halt))) := by
  induction rules with
  | nil => exact partsEnd_nil _
  | cons r rest ih =>
    obtain ⟨⟨hweek, hmoves⟩, hrest⟩ := List.forall_mem_cons.mp h
    rw [List.mapM_cons]
    have hseries : Settles (fun s => s.Ends ∧ s.left ≤ r.occurrenceLimit)
        (r.series.mapError .halt : Search Series) :=
      settles_halting fun s hs => Rule.ends_series hweek hmoves hs
    have hbegin : Settles (PartsEnd r.occurrenceLimit)
        (do beginPart (.inr (← (r.series.mapError .halt : Search Series)))) :=
      hseries.bind fun s ⟨hends, hleft⟩ => (@settles_beginPart (.inr s) hends).mono fun parts hparts =>
        ⟨hparts.ends, hparts.left.trans hleft⟩
    refine hbegin.bind fun first hfirst => (ih hrest).bind fun parts hparts => ?_
    exact hfirst.append hparts

/-- The parts of a merge begin with the dates and all that the rules allow. -/
theorem settles_beginParts {dates : List Moment} {rules : List Rule} (h : ∀ r ∈ rules, r.Runs) :
    Settles (PartsEnd (dates.length + (rules.map Rule.occurrenceLimit).sum)) (beginParts dates rules) := by
  have hdates : Settles (fun sorted => sorted.length = dates.length)
      ((sortMoments dates).mapError .halt : Search (List Moment)) :=
    settles_halting fun sorted hsorted => length_sortMoments hsorted
  refine hdates.bind fun sorted hsorted => ?_
  refine (@settles_beginPart (.inl sorted) trivial).bind fun first hfirst => ?_
  refine (settles_beginSeries h).bind fun rest hrest => ?_
  exact hsorted ▸ hfirst.append hrest

/-- A search in a set ends if every rule of the set runs. -/
theorem RuleSet.after_ne_endless {set : RuleSet} (h : ∀ r ∈ set.rules ++ set.exceptRules, r.Runs)
    (moment : Moment) : set.after moment ≠ .endless := by
  obtain ⟨hrules, hexcepted⟩ := List.forall_mem_append.mp h
  have hsettles : Settles (fun _ => True) (do
      let parts ← beginParts set.dates set.rules
      let excepted ← beginParts set.exceptDates set.exceptRules
      let parts ← orderParts parts
      let excepted ← orderParts excepted
      searchAfter moment none set.stepLimit parts excepted) := by
    refine (settles_beginParts hrules).bind fun parts hparts => ?_
    refine (settles_beginParts hexcepted).bind fun excepted hexcepted => ?_
    refine (settles_orderParts hparts).bind fun parts hparts => ?_
    refine (settles_orderParts hexcepted).bind fun excepted hexcepted => ?_
    refine settles_searchAfter moment none hparts hexcepted ?_
    rw [stepLimit, ← List.sum_eq_foldr, List.length_append, List.map_append, List.sum_append]
    omega
  unfold RuleSet.after
  dsimp only
  split
  · nofun
  · next found hfound =>
    rintro rfl
    exact hsettles.ne_endless hfound

/-! ## Rules that are read -/

variable {dates : Dates}

/-- The weekday with a name is one of seven. -/
theorem weekday?_lt {cs : List Char} {n : Nat} (h : weekday? cs = some n) : n < 7 :=
  (List.findIdx?_eq_some_iff_findIdx_eq.mp h).1

/-- What is there is taken. -/
theorem orUnusable_ok {α : Type} {found : Option α} {a : α} (h : orUnusable found = .ok a) :
    found = some a := by
  cases found with
  | none => cases h
  | some b =>
    cases h
    rfl

/-- A part that is read leaves weeks that begin on a day of the week. -/
theorem Draft.weekStart_part {d d' : Draft} {name value : List Char} (hd : d.parts.weekStart < 7)
    (h : d.part dates name value = .ok d') : d'.parts.weekStart < 7 := by
  unfold Draft.part at h
  dsimp only at h
  split at h
  -- the part that names the first day of a week
  case h_5 =>
    obtain ⟨weekStart, hread, h⟩ := bind_eq_ok.mp h
    cases h
    exact weekday?_lt (orUnusable_ok hread)
  all_goals first
    | cases h
    | obtain ⟨_, -, h⟩ := bind_eq_ok.mp h
      cases h
      exact hd

/-- What holds at the beginning of a chain of steps and is kept by each of them holds at its end. -/
theorem foldlM_ok {α β : Type} {f : β → α → Except Halt β} {P : β → Prop}
    (hf : ∀ b a b', P b → f b a = .ok b' → P b') {items : List α} {b b' : β} (hb : P b)
    (h : items.foldlM f b = .ok b') : P b' := by
  induction items generalizing b with
  | nil =>
    cases h
    exact hb
  | cons a rest ih =>
    rw [List.foldlM_cons] at h
    obtain ⟨next, hnext, h⟩ := bind_eq_ok.mp h
    exact ih (hf b a next hb hnext) h

/-- Parts that are read have weeks that begin on a day of the week. -/
theorem weekStart_readParts {cs : List Char} {p : Parts} (h : readParts dates cs = .ok p) : p.weekStart < 7 := by
  unfold readParts at h
  dsimp only at h
  split at h
  any_goals split at h
  all_goals
    obtain ⟨value, -, h⟩ := bind_eq_ok.mp h
    obtain ⟨draft, hdraft, h⟩ := bind_eq_ok.mp h
    have hweek : draft.parts.weekStart < 7 := by
      refine @foldlM_ok _ _ _ (·.parts.weekStart < 7) (fun d pair d' hd hpart => ?_) _ _ _ (by decide) hdraft
      split at hpart
      · exact Draft.weekStart_part hd hpart
      · cases hpart
    split at h
    · cases h
      exact hweek
    · cases h

/-- A rule begins its weeks where its parts say. -/
theorem weekStart_toRule {p : Parts} {start : Moment} (h : p.toRule start = .ok r) :
    r.weekStart = p.weekStart := by
  unfold Parts.toRule at h
  dsimp only at h
  split at h
  · cases h
  · split at h
    · cases h
    · obtain ⟨_, -, h⟩ := bind_eq_ok.mp h
      obtain ⟨_, -, h⟩ := bind_eq_ok.mp h
      obtain ⟨_, -, h⟩ := bind_eq_ok.mp h
      split at h
      · obtain ⟨_, -, h⟩ := bind_eq_ok.mp h
        cases h
        rfl
      · cases h
        rfl

/-- Rules that are read have weeks that begin on a day of the week. -/
theorem weekStart_readRules {values : List (List Char)} {start : Moment} {rules : List Rule}
    (h : (values.mapM fun value => do (← readParts dates value).toRule start) = .ok rules) :
    ∀ r ∈ rules, r.weekStart < 7 := by
  induction values generalizing rules with
  | nil =>
    cases h
    exact List.forall_mem_nil _
  | cons value rest ih =>
    rw [List.mapM_cons] at h
    obtain ⟨r, hr, h⟩ := bind_eq_ok.mp h
    obtain ⟨rules', hrules, h⟩ := bind_eq_ok.mp h
    obtain ⟨parts, hparts, hr⟩ := bind_eq_ok.mp hr
    cases h
    exact List.forall_mem_cons.mpr ⟨weekStart_toRule hr ▸ weekStart_readParts hparts, ih hrules⟩

/-- The rules of a set that is read have weeks that begin on a day of the week. -/
theorem weekStart_readSet {start : Moment} {rule : Text} {set : RuleSet}
    (h : readSet dates start rule = .ok set) : ∀ r ∈ set.rules ++ set.exceptRules, r.weekStart < 7 := by
  obtain ⟨properties, -, h⟩ := bind_eq_ok.mp h
  obtain ⟨rules, hrules, h⟩ := bind_eq_ok.mp h
  obtain ⟨contained, -, h⟩ := bind_eq_ok.mp h
  obtain ⟨exceptRules, hexcept, h⟩ := bind_eq_ok.mp h
  cases h
  exact List.forall_mem_append.mpr ⟨weekStart_readRules hrules, weekStart_readRules hexcept⟩

/-- The next occurrence after a reading of universal time is found or not found, if every rule that is read
moves. -/
theorem advanceUtc_ne_endless {current start : Wall} {rule : Text}
    (hmoves : ∀ set, readSet dates (.utc start) rule.trim = .ok set →
      ∀ r ∈ set.rules ++ set.exceptRules, r.Moves) :
    advanceUtc dates current start rule ≠ .ok .endless := by
  unfold advanceUtc
  dsimp only
  split
  case h_3 hfound =>
    split at hfound
    · next set hset =>
      refine absurd hfound (RuleSet.after_ne_endless (fun r hr => ?_) _)
      exact ⟨weekStart_readSet hset r hr, hmoves set hset r hr⟩
    · cases hfound
  all_goals nofun

/-- However dates are read, the search for the occurrence after a start comes to an end, if every rule that is
read moves: it finds an occurrence, which lies after the start, or there is none, or the rule cannot be used, or
there is a fault. -/
theorem advance_ends {startsAt : Stamp} {rule : Option Text} {anchor : Option Stamp}
    (hmoves : ∀ text start set, rule = some text → (anchor.getD startsAt).toUtc = .ok start →
      readSet dates (.utc start.wall) text.trim = .ok set → ∀ r ∈ set.rules ++ set.exceptRules, r.Moves) :
    (∃ s, advance dates startsAt rule anchor = .ok (.next s) ∧ startsAt.instant < s.instant) ∨
      advance dates startsAt rule anchor = .ok .last ∨ advance dates startsAt rule anchor = .ok .ignored ∨
      ∃ fault, advance dates startsAt rule anchor = .error fault := by
  have hends : advance dates startsAt rule anchor ≠ .ok .endless := by
    unfold advance
    split
    · nofun
    · next text =>
      split
      · nofun
      · intro h
        obtain ⟨current, hcurrent, h⟩ := bind_eq_ok.mp h
        cases anchor with
        | none => exact advanceUtc_ne_endless (fun set => hmoves text current set rfl hcurrent) h
        | some anchor =>
          obtain ⟨start, hstart, h⟩ := bind_eq_ok.mp h
          exact advanceUtc_ne_endless (fun set => hmoves text start set rfl hstart) h
  rcases hadvance : advance dates startsAt rule anchor with fault | s | _ | _ | _
  · exact .inr (.inr (.inr ⟨fault, rfl⟩))
  · exact .inl ⟨s, rfl, instant_lt_of_advance hadvance⟩
  · exact .inr (.inl rfl)
  · exact .inr (.inr (.inl rfl))
  · exact absurd hadvance hends

/-- The first midnight of the year 2024. -/
def newYear : Stamp := .utc ⟨738885 * 86400000000, by decide⟩

/-- The reading of dates on its day. -/
def onNewYear : Dates := .on newYear.wall.date

/-- Every other day but each week's. -/
def everyOtherDay : Text := text "RRULE:FREQ=DAILY;INTERVAL=2 EXRULE:FREQ=WEEKLY"

/-- Every other day moves on, and so do the weeks that are left out: there is an occurrence after the first. -/
theorem everyOtherDay_ends :
    (∀ text start set, some everyOtherDay = some text → (none.getD newYear).toUtc = .ok start →
      readSet onNewYear (.utc start.wall) text.trim = .ok set → ∀ r ∈ set.rules ++ set.exceptRules, r.Moves) ∧
    ∃ s, advance onNewYear newYear (some everyOtherDay) none = .ok (.next s) ∧ newYear.instant < s.instant := by
  have hmoves : ∀ text start set, some everyOtherDay = some text → (none.getD newYear).toUtc = .ok start →
      readSet onNewYear (.utc start.wall) text.trim = .ok set → ∀ r ∈ set.rules ++ set.exceptRules, r.Moves := by
    intro text start set htext hstart hset r hr
    cases htext
    cases (Stamp.toUtc_utc _).symm.trans hstart
    have hintervals : (readSet onNewYear (.utc newYear.wall) everyOtherDay.trim).toOption.map
        (fun set => (set.rules ++ set.exceptRules).map Rule.interval) = some [2, 1] := by decide +kernel
    rw [show readSet onNewYear (.utc newYear.wall) everyOtherDay.trim = .ok set from hset] at hintervals
    have hmem : r.interval ∈ [2, 1] := Option.some.inj hintervals ▸ List.mem_map_of_mem hr
    have hpositive : ∀ interval ∈ [(2 : Int), 1], 0 < interval := by decide
    exact .inl (hpositive _ hmem)
  have hfound : ((advance onNewYear newYear (some everyOtherDay) none).toOption.bind Advance.stamp?).isSome = true := by
    decide +kernel
  refine ⟨hmoves, ?_⟩
  rcases advance_ends hmoves with hnext | hlast | hignored | ⟨fault, hfault⟩
  · exact hnext
  · rw [hlast] at hfound
    cases hfound
  · rw [hignored] at hfound
    cases hfound
  · rw [hfault] at hfound
    cases hfound

/-! ## Rules that stay -/

/-- A candidate occurs no later than a moment. -/
def Rule.Past (r : Rule) (moment : Moment) (candidate : Candidate) : Prop :=
  candidate.any (fun w => moment.comparable (r.moment w) && !moment.before (r.moment w)) = true

/-- A candidate that is past is a wall reading that compares with the moment and does not lie after it. -/
theorem Rule.past_iff {moment : Moment} {candidate : Candidate} : r.Past moment candidate ↔
    ∃ w, candidate = some w ∧ moment.comparable (r.moment w) = true ∧ moment.before (r.moment w) = false := by
  cases candidate <;> simp [Past]

/-- A series without a count or a last moment stays at a period that has nothing after a moment. -/
structure Series.Stays (moment : Moment) (s : Series) : Prop where
  period : s.rule.nextPeriod s.cursor s.filtered = .ok (some s.cursor)
  again : ∃ again, s.rule.candidates s.cursor = .ok (again, s.filtered) ∧
    ∀ candidate ∈ again, s.rule.Past moment candidate
  pending : ∀ candidate ∈ s.pending, s.rule.Past moment candidate
  count : s.countLeft = none
  til : s.rule.til = none

variable {moment : Moment}

/-- Of candidates that are past, one that is past is picked, or none is. -/
theorem pick_past {pending : List Candidate} (htil : r.til = none)
    (hpast : ∀ candidate ∈ pending, r.Past moment candidate) :
    pick r none pending = .nothing ∨ ∃ w rest, pick r none pending = .occurrence w rest none ∧
      r.Past moment (some w) ∧ ∀ candidate ∈ rest, r.Past moment candidate := by
  induction pending with
  | nil => exact .inl rfl
  | cons candidate pending ih =>
    obtain ⟨hfirst, hrest⟩ := List.forall_mem_cons.mp hpast
    obtain ⟨w, rfl, -⟩ := Rule.past_iff.mp hfirst
    have hcompares : r.compares w = true := by rw [Rule.compares, htil, Option.all_none]
    have hgoing : r.isOver w = false := by rw [Rule.isOver, htil, Option.any_none]
    unfold pick
    rw [if_neg (by rw [hcompares]; decide), if_neg (by rw [hgoing]; decide)]
    split
    · exact ih hrest
    · exact .inr ⟨w, pending, rfl, hfirst, hrest⟩

/-- A series that stays gives an occurrence that is past, and stays, or it runs out of periods to look at. -/
theorem Series.Stays.next {s : Series} (h : s.Stays moment) :
    s.next = .endless ∨ ∃ w rest, s.next = .occurrence w rest ∧ rest.rule = s.rule ∧
      s.rule.Past moment (some w) ∧ rest.Stays moment := by
  obtain ⟨r, pending, cursor, filtered, countLeft, periods⟩ := s
  obtain ⟨hperiod, ⟨again, hagain, hpast⟩, hpending, rfl, htil⟩ := h
  dsimp only at hperiod hagain hpast hpending htil
  unfold Series.next
  dsimp only
  induction periods generalizing pending with
  | zero =>
    rw [Series.advanceFrom]
    rcases pick_past htil hpending with hpick | ⟨w, rest, hpick, hw, hrest⟩
    · rw [hpick]
      exact .inl rfl
    · rw [hpick]
      exact .inr ⟨w, _, rfl, rfl, hw, hperiod, ⟨again, hagain, hpast⟩, hrest, rfl, htil⟩
  | succ periods ih =>
    rw [Series.advanceFrom]
    rcases pick_past htil hpending with hpick | ⟨w, rest, hpick, hw, hrest⟩
    · rw [hpick, hperiod]
      dsimp only
      rw [hagain]
      exact ih again hpast
    · rw [hpick]
      exact .inr ⟨w, _, rfl, rfl, hw, hperiod, ⟨again, hagain, hpast⟩, hrest, rfl, htil⟩

/-- A search in a series that stays does not end, however many occurrences it may take and however many
periods the series may look at. -/
theorem searchAfter_of_stays {s : Series} {w : Wall} (h : s.Stays moment) (hw : s.rule.Past moment (some w))
    (last : Option Moment) (steps : Nat) :
    searchAfter moment last steps [⟨s.rule.moment w, .inr s⟩] [] = .error .endless := by
  induction steps generalizing s w last with
  | zero => rfl
  | succ steps ih =>
    obtain ⟨_, hsame, hcomparable, hbefore⟩ := Rule.past_iff.mp hw
    obtain rfl := Option.some.inj hsame
    have hstep : ∀ last, (stepParts ⟨s.rule.moment w, .inr s⟩ [] >>= fun parts =>
        searchAfter moment last steps parts []) = .error .endless := fun last => by
      rcases h.next with hnext | ⟨w', rest, hnext, hrule, hw', hrest⟩
      · rw [stepParts, moved, hnext]
        rfl
      · rw [stepParts, moved, hnext]
        rw [← hrule] at hw' ⊢
        exact ih hrest hw' last
    rw [searchAfter]
    split
    · exact hstep last
    · simp only [passBefore, bind, Except.bind, hcomparable, hbefore]
      exact hstep _

/-- A day of a month is kept where it is. -/
theorem Cursor.atDay_self (hmonth : 1 ≤ c.month ∧ c.month ≤ 12)
    (hday : c.day ≤ Calendar.daysInMonth c.frame.year c.month.toNat) : c.atDay r c.day = .ok (some c) := by
  unfold atDay
  split
  · rfl
  · rw [show monthCount = 9999 * 12 + 1 from rfl, carryDay]
    rw [if_pos hday]
    dsimp only
    rw [if_pos ⟨rfl, Int.toNat_of_nonneg (by omega)⟩]

/-- A daily rule with an interval of zero, without a count or a last moment, that has nothing after a moment
on its first day does not let a search end, however many occurrences it may take and however many periods may be
looked at. -/
theorem endless_of_zero_interval {s : Series} (hdaily : r.frequency = .daily) (hzero : r.interval = 0)
    (hcount : r.count = none) (htil : r.til = none) (hseries : r.series = .ok s)
    (hpast : ∀ candidate ∈ s.pending, r.Past moment candidate) (periods steps : Nat) :
    (beginPart (.inr { s with periodsLeft := periods }) >>= fun parts =>
      searchAfter moment none steps parts []) = .error .endless := by
  obtain ⟨c, hopening, hseries⟩ := bind_eq_ok.mp hseries
  obtain ⟨⟨pending, filtered⟩, hcandidates, hseries⟩ := bind_eq_ok.mp hseries
  cases hseries
  have hstays : Series.Stays moment ⟨r, pending, c, filtered, r.count, periods⟩ := by
    refine ⟨?_, ⟨pending, hcandidates, hpast⟩, hpast, hcount, htil⟩
    obtain ⟨hmonth, hmonth', -, hday⟩ :=
      (Rule.sound_opening hopening).date (hdaily ▸ by decide) hcandidates
    simp only [Rule.nextPeriod, hdaily, hzero, Int.add_zero]
    exact Cursor.atDay_self ⟨hmonth, hmonth'⟩ hday
  rcases hstays.next with hnext | ⟨w, rest, hnext, hrule, hw, hrest⟩
  · rw [beginPart, moved, hnext]
    rfl
  · rw [beginPart, moved, hnext]
    rw [← hrule] at hw ⊢
    exact searchAfter_of_stays hrest hw none steps

/-- Every day again. -/
def sameDay : Text := text "FREQ=DAILY;INTERVAL=0"

/-- With an interval of zero the search for an occurrence after the first day does not end, however many
occurrences it may take and however many periods may be looked at. Where the rest of a day is skipped, it ends
with a fault. -/
theorem sameDay_endless :
    advance onNewYear newYear (some sameDay) none = .ok .endless ∧
    (∃ r s, (readSet onNewYear (.utc newYear.wall) sameDay.trim).map (·.rules) = .ok [r] ∧ r.series = .ok s ∧
      ∀ periods steps, (beginPart (.inr { s with periodsLeft := periods }) >>= fun parts =>
        searchAfter (.utc newYear.wall) none steps parts []) = .error .endless) ∧
    ∃ fault, advance onNewYear newYear (some (text "FREQ=HOURLY;INTERVAL=0;BYMONTH=2")) none = .error fault := by
  have hendless : (advance onNewYear newYear (some sameDay) none).toOption = some .endless := by decide +kernel
  have hrules : (readSet onNewYear (.utc newYear.wall) sameDay.trim).toOption.map (fun set => set.rules.map fun r =>
      decide (r.frequency = .daily ∧ r.interval = 0 ∧ r.count = none ∧ r.til.isNone = true ∧
        (r.series.toOption.map fun s => s.pending.all fun candidate => candidate.any fun w =>
          (Moment.utc newYear.wall).comparable (r.moment w) && !(Moment.utc newYear.wall).before (r.moment w)) =
            some true)) = some [true] := by decide +kernel
  have hfault : (advance onNewYear newYear (some (text "FREQ=HOURLY;INTERVAL=0;BYMONTH=2")) none).toOption = none := by
    decide +kernel
  refine ⟨toOption_eq_some.mp hendless, ?_, toOption_eq_none.mp hfault⟩
  obtain ⟨set, hset, hrules⟩ := Option.map_eq_some_iff.mp hrules
  obtain ⟨r, hr, hparts⟩ := List.map_eq_singleton_iff.mp hrules
  obtain ⟨hdaily, hzero, hcount, htil, hpast⟩ := of_decide_eq_true hparts
  obtain ⟨s, hbegun, hall⟩ := Option.map_eq_some_iff.mp hpast
  have hread := toOption_eq_some.mp hset
  have hseries := toOption_eq_some.mp hbegun
  exact ⟨r, s, hread ▸ congrArg _ hr, hseries,
    endless_of_zero_interval hdaily hzero hcount (Option.isNone_iff_eq_none.mp htil) hseries (List.all_eq_true.mp hall)⟩

end Recurrence

end Showrunner

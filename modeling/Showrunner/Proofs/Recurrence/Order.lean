import Mathlib.Data.List.TakeWhile
import Mathlib.Order.Bounds.Basic
import Mathlib.Order.Fin.Basic
import Showrunner.Proofs.Recurrence.Ending
import Showrunner.Proofs.Recurrence.Spans

/-!
# The order of occurrences

A rule with a positive interval gives its occurrences in increasing order, no more of them than it counts and
none beyond its last moment. Therefore a search that takes the first occurrence after a stamp finds the least
one, and going on from each occurrence to the next goes through all of them.
-/

namespace Showrunner

namespace Recurrence

variable {r : Rule} {c : Cursor} {pending : List Candidate} {filtered : Bool} {countLeft : Option Int}
  {periods : Nat} {s : Series} {ws : List Wall} {halt : Option Halt}

/-! ## Unfolding -/

/-- A series unfolds to its occurrences, as it gives them one after the other, and it ends, perhaps with a
halt. -/
inductive Series.Unfolds : Series → List Wall → Option Halt → Prop
  | finished {s : Series} (h : s.next = .finished) : Unfolds s [] none
  | halted {s : Series} {halt : Halt} (h : s.next = .halt halt) : Unfolds s [] (some halt)
  | occurrence {s rest : Series} {w : Wall} {ws : List Wall} {halt : Option Halt}
      (h : s.next = .occurrence w rest) (hrest : Unfolds rest ws halt) : Unfolds s (w :: ws) halt

/-- A rule unfolds to the occurrences of its series. -/
inductive Rule.Unfolds (r : Rule) : List Wall → Option Halt → Prop
  | halted {halt : Halt} (h : r.series = .error halt) : Unfolds r [] (some halt)
  | series {s : Series} {ws : List Wall} {halt : Option Halt} (h : r.series = .ok s)
      (hs : s.Unfolds ws halt) : Unfolds r ws halt

/-- A series that may look at all its periods unfolds. -/
theorem Series.Ends.unfolds (h : s.Ends) : ∃ ws halt, s.Unfolds ws halt := by
  induction hleft : s.left using Nat.strongRecOn generalizing s with
  | ind left ih =>
    have hnext : s.next.Ends s.left := ends_advanceFrom h
    cases hgives : s.next with
    | occurrence w rest =>
      rw [hgives] at hnext
      obtain ⟨ws, halt, hrest⟩ := ih rest.left (hleft ▸ hnext.2) hnext.1 rfl
      exact ⟨w :: ws, halt, .occurrence hgives hrest⟩
    | finished => exact ⟨[], none, .finished hgives⟩
    | endless =>
      rw [hgives] at hnext
      exact hnext.elim
    | halt halt => exact ⟨[], some halt, .halted hgives⟩

/-- A rule that runs unfolds. -/
theorem Rule.Runs.unfolds (h : r.Runs) : ∃ ws halt, r.Unfolds ws halt := by
  cases hseries : r.series with
  | error halt => exact ⟨[], some halt, .halted hseries⟩
  | ok s =>
    obtain ⟨ws, halt, hs⟩ := (ends_series h.1 h.2 hseries).1.unfolds
    exact ⟨ws, halt, .series hseries hs⟩

/-! ## Occurrences in order -/

/-- The candidate that is picked follows others that are passed over. It lies at or after the start, it is not
over, and it is counted. -/
theorem pick_occurrence {w : Wall} {rest : List Candidate} {countLeft' : Option Int}
    (h : pick r countLeft pending = .occurrence w rest countLeft') :
    (∃ passed, pending = passed ++ some w :: rest) ∧ r.start.wall ≤ w ∧ r.isOver w = false ∧
      ∀ n, countLeft = some n → 0 < n ∧ countLeft' = some (n - 1) := by
  induction pending with
  | nil => cases h
  | cons candidate pending ih =>
    cases candidate with
    | none => cases h
    | some v =>
      unfold pick at h
      split at h
      · cases h
      · split at h
        · cases h
        · next hover =>
          split at h
          · obtain ⟨⟨passed, hpassed⟩, hpicked⟩ := ih h
            exact ⟨⟨some v :: passed, by rw [hpassed, List.cons_append]⟩, hpicked⟩
          · next hstart =>
            split at h
            · next n =>
              split at h
              · cases h
              · next hcount =>
                cases h
                refine ⟨⟨[], rfl⟩, not_lt.mp hstart, Bool.eq_false_iff.mpr hover, fun m hm => ?_⟩
                cases hm
                exact ⟨by omega, rfl⟩
            · cases h
              exact ⟨⟨[], rfl⟩, not_lt.mp hstart, Bool.eq_false_iff.mpr hover, fun m hm => nomatch hm⟩

/-- A series of a rule with a positive interval has candidates in order, within the span of its period. -/
structure Series.Ordered (s : Series) : Prop where
  clocked : s.rule.Clocked
  week : s.rule.weekStart < 7
  interval : 0 < s.rule.interval
  placed : s.cursor.Placed s.rule
  sorted : s.pending.Pairwise Earlier
  spans : ∀ w, some w ∈ s.pending → s.rule.Spans s.cursor w

/-- What is left of a series lies after a wall reading. -/
structure Series.After (s : Series) (v : Wall) : Prop where
  pending : ∀ w, some w ∈ s.pending → v < w
  closes : v.val < s.rule.closes s.cursor * 1000000

/-- A rule allows an occurrence at or after its start that is not over. -/
def Rule.Allows (r : Rule) (w : Wall) : Prop := r.start.wall ≤ w ∧ r.isOver w = false

/-- The span of a period closes no sooner than it opens. -/
theorem Rule.opens_le_closes (hplaced : c.Placed r) : r.opens c ≤ r.closes c := by
  obtain ⟨_, _, hof⟩ := hplaced.frame
  obtain ⟨hyear, -, hsame, -⟩ := Frame.of_ok hof
  have hmonths := hplaced.months
  have hyears := Calendar.daysBeforeYear_le (show 1 ≤ c.frame.year by omega) (Nat.le_add_right _ 1)
  have hdays := Calendar.daysBeforeMonth_le c.frame.year (show 1 ≤ c.month.toNat by omega) (Nat.le_add_right _ 1)
  unfold closes
  cases hfrequency : r.frequency <;> simp only [opens, hfrequency, Frequency.seconds]
  all_goals omega

/-- A series gives an occurrence that is allowed and counted. It lies after all that the series lies after, and
what is left lies after it, in order again. -/
structure Series.Gives (s : Series) (w : Wall) (rest : Series) : Prop where
  rule : rest.rule = s.rule
  ordered : rest.Ordered
  after : rest.After w
  before : ∀ v, s.After v → v < w
  allowed : s.rule.Allows w
  count : ∀ n, s.countLeft = some n → 0 < n ∧ rest.countLeft = some (n - 1)

/-- A series in order gives the candidate that is picked. -/
theorem Series.Ordered.gives_picked {w : Wall} {rest : List Candidate} {countLeft' : Option Int}
    (hordered : Series.Ordered ⟨r, pending, c, filtered, countLeft, periods⟩)
    (h : pick r countLeft pending = .occurrence w rest countLeft') :
    Series.Gives ⟨r, pending, c, filtered, countLeft, periods⟩ w
      ⟨r, rest, c, filtered, countLeft', periods⟩ := by
  obtain ⟨hclocked, hweek, hinterval, hplaced, hsorted, hspans⟩ := hordered
  obtain ⟨⟨passed, rfl⟩, hstart, hover, hcount⟩ := pick_occurrence h
  obtain ⟨hafter, hrest⟩ := List.pairwise_cons.mp (List.pairwise_append.mp hsorted).2.1
  have hmem : some w ∈ passed ++ some w :: rest := List.mem_append_right _ List.mem_cons_self
  have hspans' : ∀ v, some v ∈ rest → r.Spans c v := fun v hv =>
    hspans v (List.mem_append_right _ (List.mem_cons_of_mem _ hv))
  exact ⟨rfl, ⟨hclocked, hweek, hinterval, hplaced, hrest, hspans'⟩,
    ⟨fun v hv => hafter (some v) hv w rfl v rfl, (hspans w hmem).2⟩, fun v hv => hv.pending w hmem,
    ⟨hstart, hover⟩, hcount⟩

/-- The candidates of the next period are in order, and they lie after all that the current period lies
after. -/
theorem Series.Ordered.next_period {c' : Cursor} {pending' : List Candidate} {filtered' : Bool}
    (hordered : Series.Ordered ⟨r, pending, c, filtered, countLeft, periods + 1⟩)
    (hnext : r.nextPeriod c filtered = .ok (some c')) (hcandidates : r.candidates c' = .ok (pending', filtered')) :
    Series.Ordered ⟨r, pending', c', filtered', countLeft, periods⟩ ∧
      ∀ v, Series.After ⟨r, pending, c, filtered, countLeft, periods + 1⟩ v →
        Series.After ⟨r, pending', c', filtered', countLeft, periods⟩ v := by
  obtain ⟨hclocked, hweek, hinterval, hplaced, -, -⟩ := hordered
  obtain ⟨hplaced', hcloses⟩ := Rule.placed_nextPeriod hclocked hweek hinterval hplaced hnext
  obtain ⟨hsorted', hspans'⟩ := hplaced'.spans hweek hcandidates
  refine ⟨⟨hclocked, hweek, hinterval, hplaced', hsorted', hspans'⟩, fun v hv => ?_⟩
  -- what closed before the period opened lies before all of its candidates
  have hclosed := hv.closes
  have hopens := Rule.opens_le_closes hplaced'
  dsimp only at hclosed hcloses hopens hspans'
  refine ⟨fun w hw => Fin.lt_def.mpr ?_, ?_⟩
  · have := (hspans' w hw).1
    omega
  · dsimp only
    omega

/-- What a series in order gives next, after some periods, comes in order. -/
theorem Series.Ordered.gives {w : Wall} {rest : Series}
    (hordered : Series.Ordered ⟨r, pending, c, filtered, countLeft, periods⟩)
    (h : Series.advanceFrom r countLeft periods pending c filtered = .occurrence w rest) :
    Series.Gives ⟨r, pending, c, filtered, countLeft, periods⟩ w rest := by
  induction periods generalizing pending c filtered with
  | zero =>
    rw [Series.advanceFrom] at h
    split at h
    · next hpick =>
      cases h
      exact hordered.gives_picked hpick
    · cases h
    · cases h
    · cases h
  | succ periods ih =>
    rw [Series.advanceFrom] at h
    split at h
    · next hpick =>
      cases h
      exact hordered.gives_picked hpick
    · cases h
    · cases h
    · split at h
      · cases h
      · cases h
      · next c' hnext =>
        split at h
        · cases h
        · next pending' filtered' hcandidates =>
          obtain ⟨hordered', hafter⟩ := hordered.next_period hnext hcandidates
          have hgives := ih hordered' h
          exact ⟨hgives.rule, hgives.ordered, hgives.after, fun v hv => hgives.before v (hafter v hv),
            hgives.allowed, hgives.count⟩

/-- Wall readings come in increasing order, a rule allows them, and they are no more than are counted. -/
structure Rule.Orders (r : Rule) (count : Option Int) (ws : List Wall) : Prop where
  sorted : ws.Pairwise (· < ·)
  allowed : ∀ w ∈ ws, r.Allows w
  count : ∀ n, count = some n → ws.length ≤ n.toNat

/-- No wall readings are in order. -/
theorem Rule.orders_nil (r : Rule) (count : Option Int) : r.Orders count [] :=
  ⟨.nil, List.forall_mem_nil _, fun _ _ => Nat.zero_le _⟩

/-- A series in order unfolds in order, after all that it lies after. -/
theorem Series.Unfolds.orders (h : s.Unfolds ws halt) (hordered : s.Ordered) :
    s.rule.Orders s.countLeft ws ∧ ∀ v, s.After v → ∀ w ∈ ws, v < w := by
  induction h with
  | finished => exact ⟨Rule.orders_nil _ _, fun _ _ => List.forall_mem_nil _⟩
  | halted => exact ⟨Rule.orders_nil _ _, fun _ _ => List.forall_mem_nil _⟩
  | @occurrence s rest w ws halt hnext _ ih =>
    have hgives := hordered.gives hnext
    obtain ⟨⟨hsorted, hallowed, hcount⟩, hlater⟩ := ih hgives.ordered
    have hlater := hlater w hgives.after
    refine ⟨⟨List.pairwise_cons.mpr ⟨hlater, hsorted⟩, ?_, fun n hn => ?_⟩, fun v hv => ?_⟩
    · exact List.forall_mem_cons.mpr ⟨hgives.allowed, hgives.rule ▸ hallowed⟩
    · obtain ⟨hpositive, hleft⟩ := hgives.count n hn
      have := hcount (n - 1) hleft
      rw [List.length_cons]
      omega
    · have hbefore := hgives.before v hv
      exact List.forall_mem_cons.mpr ⟨hbefore, fun u hu => lt_trans hbefore (hlater u hu)⟩

/-- The series of a rule with a positive interval begins in order. -/
theorem Rule.ordered_series (hclocked : r.Clocked) (hweek : r.weekStart < 7) (hinterval : 0 < r.interval)
    (h : r.series = .ok s) : s.Ordered ∧ s.rule = r ∧ s.countLeft = r.count := by
  obtain ⟨c, hopening, h⟩ := bind_eq_ok.mp h
  obtain ⟨⟨pending, filtered⟩, hcandidates, h⟩ := bind_eq_ok.mp h
  cases h
  have hplaced := placed_opening hclocked hopening
  obtain ⟨hsorted, hspans⟩ := hplaced.spans hweek hcandidates
  exact ⟨⟨hclocked, hweek, hinterval, hplaced, hsorted, hspans⟩, rfl, rfl⟩

/-- A rule with a positive interval unfolds in order. -/
theorem Rule.Unfolds.orders (h : r.Unfolds ws halt) (hclocked : r.Clocked) (hweek : r.weekStart < 7)
    (hinterval : 0 < r.interval) : r.Orders r.count ws := by
  cases h with
  | halted => exact r.orders_nil _
  | series hseries hs =>
    obtain ⟨hordered, rfl, hcount⟩ := ordered_series hclocked hweek hinterval hseries
    exact hcount ▸ (hs.orders hordered).1

/-! ## Searching -/

/-- What there is after a wall reading of universal time: the first of those that come after it, or the end of
what unfolds. -/
def firstAfter (current : Wall) (ws : List Wall) (halt : Option Halt) : Found :=
  match ws.find? (current < ·), halt with
  | some w, _ => .next (.utc w)
  | none, none => .none
  | none, some halt => .halt halt

/-- The first wall reading comes first, if it lies after the current one. -/
theorem firstAfter_cons (current w : Wall) (ws : List Wall) (halt : Option Halt) :
    firstAfter current (w :: ws) halt = if current < w then .next (.utc w) else firstAfter current ws halt := by
  unfold firstAfter
  rw [List.find?_cons]
  by_cases hlater : current < w
  · rw [if_pos hlater, decide_eq_true hlater]
  · rw [if_neg hlater, decide_eq_false hlater]

/-- A search that has found something. -/
def Found.search : Found → Search Stamp
  | .next s => .ok s
  | found => .error found

/-- What a search comes to. -/
def Found.ofSearch : Search Stamp → Found
  | .ok s => .next s
  | .error found => found

/-- A search finds nothing where there are no parts. -/
theorem searchAfter_nil (moment : Moment) (last : Option Moment) (steps : Nat) (excepted : List Part) :
    searchAfter moment last steps [] excepted = .error .none := by
  cases steps <;> rfl

/-- A search takes an occurrence of a single part that has not been taken yet, if it lies after the current wall
reading, and otherwise it goes on. -/
theorem searchAfter_single {current w : Wall} {last : Option Moment} (hlast : ∀ l ∈ last, l.instant < w.val)
    (steps : Nat) (tail : List Moment ⊕ Series) :
    searchAfter (.utc current) last (steps + 1) [⟨.utc w, tail⟩] [] =
      if current < w then .ok (.utc w)
      else stepParts ⟨.utc w, tail⟩ [] >>= fun parts =>
        searchAfter (.utc current) (some (.utc w)) steps parts [] := by
  have hnew : last.any (Moment.utc w).same = false := by
    cases last with
    | none => rfl
    | some l =>
      have := hlast l rfl
      exact Moment.same_utc_of_ne (by omega)
  have hbefore : (Moment.utc current).before (.utc w) = decide (current < w) := by
    rw [Moment.before_utc_left, Moment.instant_utc]
    exact decide_eq_decide.mpr Int.ofNat_lt
  rw [searchAfter, hnew, if_neg Bool.false_ne_true, passBefore]
  by_cases hlater : current < w
  · rw [if_pos hlater]
    simp only [bind, Except.bind, hbefore, decide_eq_true hlater]
    rfl
  · rw [if_neg hlater]
    simp only [bind, Except.bind, hbefore, decide_eq_false hlater]
    rfl

/-- A series in universal time shows its occurrences there. -/
theorem moved_utc {rest : Series} {w : Wall} (hnext : s.next = .occurrence w rest)
    (hutc : s.rule.start.dial = .fixed 0) : moved (.inr s) = .part ⟨.utc w, .inr rest⟩ := by
  simp only [moved, hnext, Rule.moment, hutc]
  rfl

/-- A series in order that unfolds is searched through, unless the search takes no more occurrences. -/
theorem searchAfter_of_unfolds {current w : Wall} {last : Option Moment} (h : s.Unfolds ws halt)
    (hutc : s.rule.start.dial = .fixed 0) (hordered : s.Ordered) (hafter : s.After w)
    (hlast : ∀ l ∈ last, l.instant < w.val) (steps : Nat) :
    searchAfter (.utc current) last steps [⟨.utc w, .inr s⟩] [] = .error .endless ∨
      searchAfter (.utc current) last steps [⟨.utc w, .inr s⟩] [] =
        (firstAfter current (w :: ws) halt).search := by
  induction h generalizing w last steps with
  | finished hnext =>
    cases steps with
    | zero => exact .inl rfl
    | succ steps =>
      rw [searchAfter_single hlast, firstAfter_cons, stepParts, moved, hnext]
      split
      · exact .inr rfl
      · exact .inr (searchAfter_nil ..)
  | halted hnext =>
    cases steps with
    | zero => exact .inl rfl
    | succ steps =>
      rw [searchAfter_single hlast, firstAfter_cons, stepParts, moved, hnext]
      split
      · exact .inr rfl
      · exact .inr rfl
  | @occurrence s rest v ws halt hnext _ ih =>
    cases steps with
    | zero => exact .inl rfl
    | succ steps =>
      have hgives := hordered.gives hnext
      rw [searchAfter_single hlast, firstAfter_cons, stepParts, moved_utc hnext hutc]
      split
      · exact .inr rfl
      · have hlast' : ∀ l ∈ some (Moment.utc w), l.instant < v.val := fun l hl => by
          cases hl
          rw [Moment.instant_utc]
          exact Int.ofNat_lt.mpr (hgives.before w hafter)
        exact ih (hgives.rule ▸ hutc) hgives.ordered hgives.after hlast' steps

/-- The parts of a merge of one rule begin with its series. -/
theorem beginParts_single (r : Rule) :
    beginParts [] [r] = (do beginPart (.inr (← r.series.mapError .halt))) := by
  have hone : beginParts [] [r] = (do
      let rest ← [r].mapM fun r => do beginPart (.inr (← r.series.mapError .halt))
      pure ([] ++ rest.flatten)) := rfl
  rw [hone, List.mapM_cons, List.mapM_nil]
  cases (do beginPart (.inr (← r.series.mapError .halt)) : Search (List Part)) with
  | ok parts => exact congrArg Except.ok (by simp)
  | error found => rfl

/-- One part is in order. -/
theorem orderParts_single (p : Part) : orderParts [p] = .ok [p] := by
  rw [orderParts, Heap.build_single]
  rfl

/-- A set of one rule with a positive interval in universal time has after a wall reading what there is among
its occurrences. -/
theorem RuleSet.after_single (hclocked : r.Clocked) (hweek : r.weekStart < 7) (hinterval : 0 < r.interval)
    (hutc : r.start.dial = .fixed 0) (h : r.Unfolds ws halt) (current : Wall) :
    RuleSet.after ⟨[r], [], [], []⟩ (.utc current) = firstAfter current ws halt := by
  have hends : RuleSet.after ⟨[r], [], [], []⟩ (.utc current) ≠ .endless :=
    RuleSet.after_ne_endless (List.forall_mem_singleton.mpr ⟨hweek, .inl hinterval⟩) _
  obtain ⟨steps, hafter⟩ : ∃ steps, RuleSet.after ⟨[r], [], [], []⟩ (.utc current) =
      .ofSearch (do searchAfter (.utc current) none steps (← orderParts (← beginParts [] [r])) []) := ⟨_, rfl⟩
  rw [hafter, beginParts_single] at hends ⊢
  cases h with
  | halted hseries =>
    rw [hseries]
    rfl
  | @series s _ _ hseries hs =>
    obtain ⟨hordered, hrule, -⟩ := Rule.ordered_series hclocked hweek hinterval hseries
    have hbegin : (do beginPart (.inr (← (Except.ok s : Except Halt Series).mapError .halt)) :
        Search (List Part)) = beginPart (.inr s) := rfl
    rw [hseries, hbegin, beginPart] at hends ⊢
    cases hs with
    | finished hnext =>
      rw [moved, hnext]
      change Found.ofSearch (searchAfter (.utc current) none steps [] []) = _
      rw [searchAfter_nil]
      rfl
    | halted hnext =>
      rw [moved, hnext]
      rfl
    | @occurrence _ rest w ws _ hnext hrest =>
      have hgives := hordered.gives hnext
      rw [moved_utc hnext (hrule ▸ hutc)] at hends ⊢
      simp only [bind, Except.bind, orderParts_single] at hends ⊢
      rcases @searchAfter_of_unfolds _ _ _ current _ none hrest (by rw [hgives.rule, hrule, hutc])
        hgives.ordered hgives.after (fun l hl => absurd hl (Option.not_mem_none l)) steps with hendless | hfound
      · rw [hendless] at hends
        exact absurd rfl hends
      · rw [hfound]
        cases firstAfter current (w :: ws) halt <;> rfl

/-! ## A rule text -/

/-- A rule text is a single rule with some parts: it has one property, which is a rule. -/
def IsRule (dates : Dates) (rule : Text) (p : Parts) : Prop :=
  ∃ value, (Blank.words rule.trim.upper.toChars).foldlM (Properties.line dates (zoneNames rule.trim.toChars))
    ⟨[], [], [], [], none⟩ = .ok ⟨[value], [], [], [], none⟩ ∧ readParts dates value = .ok p

variable {dates : Dates}

/-- A single rule is read as a set of one rule. -/
theorem IsRule.readSet {rule : Text} {p : Parts} {start : Moment} (hrule : IsRule dates rule p)
    (hr : p.toRule start = .ok r) : readSet dates start rule.trim = .ok ⟨[r], [], [], []⟩ := by
  obtain ⟨value, hproperties, hparts⟩ := hrule
  refine bind_eq_ok.mpr ⟨_, hproperties, bind_eq_ok.mpr ⟨[r], ?_, rfl⟩⟩
  rw [List.mapM_cons, List.mapM_nil]
  exact bind_eq_ok.mpr ⟨r, bind_eq_ok.mpr ⟨p, hparts, hr⟩, rfl⟩

/-- A single rule is not blank. -/
theorem IsRule.not_blank {rule : Text} {p : Parts} (h : IsRule dates rule p) : rule.isBlank = false := by
  obtain ⟨value, hproperties, -⟩ := h
  by_contra hblank
  have hnothing : rule.trim = [] := by
    unfold Text.trim Blank.trimBy
    rw [List.dropWhile_eq_nil_iff.mpr (List.all_eq_true.mp (Bool.eq_true_of_not_eq_false hblank))]
    rfl
  rw [hnothing] at hproperties
  cases hproperties

/-- How a rule that has nothing more ends: it is over, or it cannot be used, or there is a fault. -/
def ending : Option Halt → Except Fault Advance
  | none => .ok .last
  | some .unusable => .ok .ignored
  | some (.fault fault) => .error fault

section Advancing

variable {rule : Text} {p : Parts} {anchor start startsAt current : Stamp}

/-- The next occurrence is searched for in universal time, for a rule that says anything. -/
theorem advance_eq_advanceUtc (hblank : rule.isBlank = false) (hcurrent : startsAt.toUtc? = some current)
    (hstart : anchor.toUtc? = some start) :
    advance dates startsAt (some rule) (some anchor) = advanceUtc dates current.wall start.wall rule := by
  unfold advance
  dsimp only
  rw [hblank, if_neg Bool.false_ne_true, Stamp.toUtc_ok.mpr hcurrent, Stamp.toUtc_ok.mpr hstart]
  rfl

/-- The next occurrence of a single rule with a positive interval is the first one after a start, or the rule
ends. -/
theorem IsRule.advance (hrule : IsRule dates rule p) (hinterval : 0 < p.interval)
    (hstart : anchor.toUtc? = some start) (hr : p.toRule (.utc start.wall) = .ok r) (h : r.Unfolds ws halt)
    (hcurrent : startsAt.toUtc? = some current) :
    advance dates startsAt (some rule) (some anchor) =
      match ws.find? (current.wall < ·) with
      | some w => .ok (.next (.utc w))
      | none => ending halt := by
  obtain ⟨hclocked, hsame, -, hinterval', hweek, -⟩ := toRule_ok hr
  obtain ⟨value, -, hparts⟩ := id hrule
  have hafter := RuleSet.after_single hclocked (hweek ▸ weekStart_readParts hparts) (hinterval' ▸ hinterval)
    (by rw [hsame]; rfl) h current.wall
  rw [advance_eq_advanceUtc hrule.not_blank hcurrent hstart]
  unfold advanceUtc
  rw [hrule.readSet hr]
  dsimp only
  rw [hafter]
  unfold firstAfter
  cases ws.find? (current.wall < ·) with
  | some w => rfl
  | none =>
    cases halt with
    | none => rfl
    | some halt => cases halt <;> rfl

/-- In increasing order, the first value after one of them is the one that follows it. -/
theorem find?_lt_eq_getElem? {ws : List Wall} (hsorted : ws.Pairwise (· < ·)) {w : Wall} {n : Nat}
    (h : ws[n]? = some w) : ws.find? (w < ·) = ws[n + 1]? := by
  induction ws generalizing n with
  | nil => cases h
  | cons v rest ih =>
    obtain ⟨hfirst, hrest⟩ := List.pairwise_cons.mp hsorted
    rw [List.getElem?_cons_succ]
    cases n with
    | zero =>
      cases h
      rw [List.find?_cons_of_neg (by simp)]
      cases rest with
      | nil => rfl
      | cons u rest => exact List.find?_cons_of_pos (decide_eq_true (hfirst u List.mem_cons_self))
    | succ n =>
      rw [List.getElem?_cons_succ] at h
      have hlater := hfirst w (List.mem_of_getElem? h)
      rw [List.find?_cons_of_neg (by simpa using hlater.le)]
      exact ih hrest h

/-- In increasing order, the least of the values after another one is the first of them. -/
theorem find?_lt_of_isLeast {ws : List Wall} (hsorted : ws.Pairwise (· < ·)) {current w : Wall}
    (h : IsLeast {v | v ∈ ws ∧ current < v} w) : ws.find? (current < ·) = some w := by
  obtain ⟨⟨hmem, hlater⟩, hleast⟩ := h
  obtain ⟨before, behind, rfl⟩ := List.append_of_mem hmem
  refine List.find?_eq_some_iff_append.mpr ⟨decide_eq_true hlater, before, behind, rfl, fun v hv => ?_⟩
  have hbefore := (List.pairwise_append.mp hsorted).2.2 v hv w List.mem_cons_self
  have hnot : ¬current < v := fun hcurrent =>
    not_le_of_gt hbefore (hleast ⟨List.mem_append_left _ hv, hcurrent⟩)
  rw [decide_eq_false hnot]
  rfl

/-- What follows an occurrence of a single rule is its first occurrence after that. -/
theorem IsRule.following (hrule : IsRule dates rule p) (hinterval : 0 < p.interval)
    (hstart : anchor.toUtc? = some start) (hr : p.toRule (.utc start.wall) = .ok r) (h : r.Unfolds ws halt)
    (hcurrent : startsAt.toUtc? = some current) :
    following (some rule) anchor startsAt dates = (ws.find? (current.wall < ·)).map .utc := by
  rw [Recurrence.following, hrule.advance hinterval hstart hr h hcurrent]
  cases ws.find? _ with
  | some w => rfl
  | none =>
    cases halt with
    | none => rfl
    | some halt => cases halt <;> rfl

/-- The occurrences of a single rule are visited one after the other, from the first one after the anchor. -/
theorem occurrence_of_isRule (hinterval : 0 < p.interval) (hstart : anchor.toUtc? = some start)
    (hr : p.toRule (.utc start.wall) = .ok r) (h : r.Unfolds ws halt) (hsorted : ws.Pairwise (· < ·)) (n : Nat)
    {readings : List Dates} (hlength : readings.length = n + 1) (hrules : ∀ dates ∈ readings, IsRule dates rule p) :
    occurrence (some rule) anchor readings = ((ws.filter (start.wall < ·))[n]?).map .utc := by
  induction n generalizing readings with
  | zero =>
    obtain ⟨dates, rfl⟩ := List.length_eq_one_iff.mp hlength
    have hrule := hrules dates (List.mem_singleton_self dates)
    rw [show [dates] = [] ++ [dates] from rfl, occurrence_concat]
    exact (hrule.following hinterval hstart hr h hstart).trans (by
      rw [← List.head?_eq_getElem?, List.head?_filter])
  | succ n ih =>
    obtain ⟨earlier, dates, rfl⟩ := List.eq_nil_or_concat readings |>.resolve_left fun hnil => by
      rw [hnil] at hlength
      cases hlength
    rw [List.concat_eq_append] at hlength hrules ⊢
    obtain ⟨hearlier, hlast⟩ := List.forall_mem_append.mp hrules
    have hrule := hlast dates (List.mem_singleton_self dates)
    rw [List.length_append, List.length_singleton] at hlength
    rw [occurrence_concat, ih (Nat.succ.inj hlength) hearlier]
    cases hn : (ws.filter (start.wall < ·))[n]? with
    | none =>
      rw [List.getElem?_eq_none ((List.getElem?_eq_none_iff.mp hn).trans (Nat.le_succ n))]
      rfl
    | some w =>
      have hlater : start.wall < w :=
        of_decide_eq_true (List.mem_filter.mp (List.mem_of_getElem? hn)).2
      have hsame : (ws.filter (start.wall < ·)).find? (w < ·) = ws.find? (w < ·) := by
        rw [List.find?_filter]
        congr 1
        funext v
        simp only [decide_eq_true_eq, decide_eq_decide]
        exact ⟨And.right, fun hv => ⟨lt_trans hlater hv, hv⟩⟩
      rw [Option.map_some, Option.bind_some, hrule.following hinterval hstart hr h (Stamp.toUtc?_utc w),
        ← find?_lt_eq_getElem? (hsorted.filter _) hn, hsame]
      rfl

/-- A single rule with a positive interval unfolds in increasing order from the whole second of its anchor, to no
more occurrences than it counts and none beyond its last moment. The next occurrence is the least one after a
start; if there is none, the rule has ended. Going on from the anchor visits each later occurrence once and in
order, and then nothing more, so long as the text is read as the same rule. -/
theorem advance_isLeast (hrule : IsRule dates rule p) (hinterval : 0 < p.interval)
    (hstart : anchor.toUtc? = some start) (hr : p.toRule (.utc start.wall) = .ok r) :
    (∃ ws halt, r.Unfolds ws halt) ∧ ∀ ws halt, r.Unfolds ws halt →
      (ws.Pairwise (· < ·) ∧ (∀ w ∈ ws, start.wall.wholeSecond ≤ w) ∧
        (∀ n, p.count = some n → ws.length ≤ n.toNat) ∧
        ∀ til, p.til = some til → ∀ w ∈ ws, (w.val : Int) ≤ til.instant) ∧
      (∀ startsAt current, startsAt.toUtc? = some current →
        (∀ w, IsLeast {v | v ∈ ws ∧ current.wall < v} w →
          Recurrence.advance dates startsAt (some rule) (some anchor) = .ok (.next (.utc w))) ∧
        ((∀ w ∈ ws, w ≤ current.wall) →
          Recurrence.advance dates startsAt (some rule) (some anchor) = ending halt)) ∧
      ∀ n (readings : List Dates), readings.length = n + 1 → (∀ other ∈ readings, IsRule other rule p) →
        occurrence (some rule) anchor readings = ((ws.filter (start.wall < ·))[n]?).map .utc := by
  obtain ⟨hclocked, hsame, -, hinterval', hweek, hcount, htil⟩ := toRule_ok hr
  obtain ⟨value, -, hparts⟩ := id hrule
  have hweek' : r.weekStart < 7 := hweek ▸ weekStart_readParts hparts
  refine ⟨Rule.Runs.unfolds ⟨hweek', .inl (hinterval' ▸ hinterval)⟩, fun ws halt h => ?_⟩
  obtain ⟨hsorted, hallowed, hlength⟩ := h.orders hclocked hweek' (hinterval' ▸ hinterval)
  refine ⟨⟨hsorted, fun w hw => ?_, hcount ▸ hlength, fun til htil' w hw => ?_⟩,
    fun startsAt current hcurrent => ⟨fun w hleast => ?_, fun hnone => ?_⟩,
    fun n _ => occurrence_of_isRule hinterval hstart hr h hsorted n⟩
  · have := (hallowed w hw).1
    rwa [hsame] at this
  · have hover := (hallowed w hw).2
    rw [Rule.isOver, htil, htil', Option.any_some, Rule.moment, hsame] at hover
    have hnot := of_decide_eq_false ((Moment.before_utc_right til w).symm.trans hover)
    omega
  · rw [hrule.advance hinterval hstart hr h hcurrent, find?_lt_of_isLeast hsorted hleast]
  · rw [hrule.advance hinterval hstart hr h hcurrent,
      List.find?_eq_none.mpr fun w hw => by simpa using hnone w hw]

end Advancing

/-- Mondays and Fridays, three of them. -/
def mondaysAndFridays : Text := text "RRULE:FREQ=DAILY;BYDAY=MO,FR;COUNT=3"

/-- Mondays and Fridays are visited one after the other from a Monday, and no more than three of them. -/
theorem mondaysAndFridays_visited : ∃ p r, IsRule onNewYear mondaysAndFridays p ∧ 0 < p.interval ∧
    newYear.toUtc? = some newYear ∧ p.toRule (.utc newYear.wall) = .ok r ∧ ∃ ws halt, r.Unfolds ws halt ∧ ws.length ≤ 3 ∧
      ∀ n, occurrence (some mondaysAndFridays) newYear (.replicate (n + 1) onNewYear) =
        ((ws.filter (newYear.wall < ·))[n]?).map .utc := by
  have hread : ((Blank.words mondaysAndFridays.trim.upper.toChars).foldlM
      (Properties.line onNewYear (zoneNames mondaysAndFridays.trim.toChars)) ⟨[], [], [], [], none⟩).toOption.map
        (fun q => decide (q.rules = ["FREQ=DAILY;BYDAY=MO,FR;COUNT=3".toList] ∧ q.dates = [] ∧
          q.exceptRules = [] ∧ q.exceptDates.isEmpty = true ∧ q.start.isNone = true)) = some true := by decide +kernel
  have hparts : (readParts onNewYear "FREQ=DAILY;BYDAY=MO,FR;COUNT=3".toList).toOption.map
      (fun p => (p.interval, p.count, (p.toRule (.utc newYear.wall)).toOption.isSome)) = some (1, some 3, true) := by
    decide +kernel
  obtain ⟨⟨_, _, _, _, _⟩, hproperties, hq⟩ := Option.map_eq_some_iff.mp hread
  obtain ⟨rfl, rfl, rfl, hdates, hnone⟩ := of_decide_eq_true hq
  obtain rfl := List.isEmpty_iff.mp hdates
  obtain rfl := Option.isNone_iff_eq_none.mp hnone
  obtain ⟨p, hp, hsaid⟩ := Option.map_eq_some_iff.mp hparts
  obtain ⟨hinterval, hcount, hmade⟩ := Prod.mk.inj hsaid |>.imp_right Prod.mk.inj
  obtain ⟨r, hr⟩ := Option.isSome_iff_exists.mp hmade
  have hrule : IsRule onNewYear mondaysAndFridays p := ⟨_, toOption_eq_some.mp hproperties, toOption_eq_some.mp hp⟩
  have hpositive : 0 < p.interval := hinterval ▸ by decide
  have hstart : newYear.toUtc? = some newYear := Stamp.toUtc?_utc _
  obtain ⟨⟨ws, halt, h⟩, hall⟩ := advance_isLeast hrule hpositive hstart (toOption_eq_some.mp hr)
  obtain ⟨⟨-, -, hlength, -⟩, -, hvisited⟩ := hall ws halt h
  refine ⟨p, r, hrule, hpositive, hstart, toOption_eq_some.mp hr, ws, halt, h, hlength 3 hcount, fun n => ?_⟩
  exact hvisited n _ List.length_replicate fun other hother => List.eq_of_mem_replicate hother ▸ hrule

end Recurrence

end Showrunner

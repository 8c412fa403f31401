import Showrunner.Proofs.Outcome
import Showrunner.Recurrence.Read

/-!
# Refusals of rule texts

Whatever a rule text holds, reading it gives rules and dates, or it is refused, or reading one of its dates
or finding one of its zones ends with a fault: no reader fails in another way.
-/

namespace Showrunner

namespace Recurrence

/-! ## Refusing -/

/-- An operation that fails ends with one of these halts. -/
def Halts {α : Type} (E : Halt → Prop) (m : Except Halt α) : Prop := Comes E (fun _ : α => True) m

/-- An operation that fails refuses the rule text. -/
abbrev Refuses {α : Type} (m : Except Halt α) : Prop := Halts (· = .unusable) m

/-- Reading a date or finding a zone ends with a halt. -/
def Dates.Fails (dates : Dates) (h : Halt) : Prop :=
  ∃ cs, dates.read cs = .error h ∨ dates.zone? cs = .error h

/-- An operation that fails refuses the rule text or fails as its dates and zones do. -/
abbrev Reads (dates : Dates) {α : Type} (m : Except Halt α) : Prop :=
  Halts (fun h => h = .unusable ∨ dates.Fails h) m

section Refusing

variable {α β : Type} {E : Halt → Prop}

/-- An operation that succeeds ends with no halt. -/
theorem halts_ok (a : α) : Halts E (.ok a : Except Halt α) := trivial

/-- To refuse the rule text is to refuse it. -/
theorem refuses_unusable : Refuses (unusable : Except Halt α) := rfl

/-- What is not there is refused. -/
theorem refuses_orUnusable (found : Option α) : Refuses (orUnusable found) := by
  cases found with
  | none => exact refuses_unusable
  | some a => exact halts_ok a

/-- A chain of steps ends with the halts of each of them. -/
theorem Halts.bind {m : Except Halt α} {f : α → Except Halt β} (h : Halts E m) (hf : ∀ a, Halts E (f a)) :
    Halts E (m >>= f) :=
  Comes.bind h fun a _ => hf a

/-- A choice between operations ends with the halts of either. -/
theorem Halts.ite {p : Prop} [Decidable p] {m m' : Except Halt α} (h : Halts E m) (h' : Halts E m') :
    Halts E (if p then m else m') := by
  split
  · exact h
  · exact h'

/-- Steps over a list end with the halts of the steps. -/
theorem halts_mapM {f : α → Except Halt β} (h : ∀ a, Halts E (f a)) (items : List α) :
    Halts E (items.mapM f) :=
  (comes_mapM fun a _ => h a).mono (fun _ => id) fun _ _ => trivial

/-- Steps from one value to another end with the halts of the steps. -/
theorem halts_foldlM {f : β → α → Except Halt β} (h : ∀ b a, Halts E (f b a)) (items : List α) (b : β) :
    Halts E (items.foldlM f b) :=
  comes_foldlM trivial fun b a _ _ => h b a

variable {dates : Dates}

/-- What refuses the rule text fails in no other way. -/
theorem Halts.reads {m : Except Halt α} (h : Refuses m) : Reads dates m :=
  Comes.mono h (fun _ => .inl) fun _ => id

/-- Reading a date fails as it does. -/
theorem reads_date (cs : List Char) : Reads dates (dates.read cs) :=
  comes_iff.mpr ⟨fun _ _ => trivial, fun _ h => .inr ⟨cs, .inl h⟩⟩

/-- Finding a zone fails as it does. -/
theorem reads_zone (cs : List Char) : Reads dates (dates.zone? cs) :=
  comes_iff.mpr ⟨fun _ _ => trivial, fun _ h => .inr ⟨cs, .inr h⟩⟩

/-- What is refused is refused whatever the dates. -/
theorem reads_unusable : Reads dates (unusable : Except Halt α) := Halts.reads refuses_unusable

end Refusing

/-! ## Parts of a rule -/

/-- What is not an integer is refused. -/
theorem refuses_integer (cs : List Char) : Refuses (integer cs) := refuses_orUnusable _

/-- What is not a list of integers is refused. -/
theorem refuses_integers (cs : List Char) : Refuses (integers cs) := halts_mapM refuses_integer _

/-- What is not a day of the week is refused. -/
theorem refuses_dayPart (cs : List Char) : Refuses (dayPart cs) := by
  have hweekday : ∀ (name : List Char) (nth : Option Int), Refuses (do
      let weekday ← orUnusable (weekday? name)
      if nth == some 0 then unusable
      pure (⟨weekday, nth⟩ : DayPart)) := fun name nth =>
    (refuses_orUnusable _).bind fun weekday => Halts.ite rfl (halts_ok _)
  have hnamed : ∀ named : List Char × List Char, Refuses (do
      let nth ← if named.1.isEmpty && !cs.contains '(' then pure none else do pure (some (← integer named.1))
      let weekday ← orUnusable (weekday? named.2)
      if nth == some 0 then unusable
      pure (⟨weekday, nth⟩ : DayPart)) := fun named =>
    Halts.ite ((halts_ok none).bind (hweekday named.2))
      ((refuses_integer _).bind fun n => (halts_ok (some n)).bind (hweekday named.2))
  unfold dayPart
  dsimp only
  refine Halts.ite ?_ (Halts.ite (refuses_unusable.bind hnamed) ((halts_ok _).bind hnamed))
  split
  · exact (halts_ok _).bind hnamed
  · exact refuses_unusable.bind hnamed

variable {dates : Dates}

/-- A part of a rule that cannot be read is refused, or its date is not read. -/
theorem Draft.reads_part (d : Draft) (name value : List Char) : Reads dates (d.part dates name value) := by
  unfold Draft.part
  dsimp only
  split
  -- the frequency, the last moment, the first day of a week, and the days under either of their names
  case h_1 => exact (refuses_orUnusable _).reads.bind fun _ => halts_ok _
  case h_4 => exact (reads_date _).bind fun _ => halts_ok _
  case h_5 => exact (refuses_orUnusable _).reads.bind fun _ => halts_ok _
  case h_12 => exact (halts_mapM refuses_dayPart _).reads.bind fun _ => halts_ok _
  case h_13 => exact (halts_mapM refuses_dayPart _).reads.bind fun _ => halts_ok _
  -- a part of another name, and then the numbers and lists of numbers
  case h_17 => exact reads_unusable
  all_goals first
    | exact (refuses_integer value).reads.bind fun _ => halts_ok _
    | exact (refuses_integers value).reads.bind fun _ => halts_ok _

/-- Parts of a rule that cannot be read are refused, or a date of theirs is not read. -/
theorem reads_readParts (cs : List Char) : Reads dates (readParts dates cs) := by
  unfold readParts
  dsimp only
  split
  any_goals split
  -- the value is what stands behind the name of the property, and each pair in it is read
  all_goals
    refine Halts.bind ?_ fun value => Halts.bind (halts_foldlM (fun d pair => ?_) _ _) fun draft => ?_
    · first | exact halts_ok _ | exact reads_unusable
    · split
      · exact d.reads_part _ _
      · exact reads_unusable
    · split
      · exact halts_ok _
      · exact reads_unusable

/-! ## Times of a rule -/

/-- What is not a time of a day is refused. -/
theorem refuses_timeOfDay (hour minute second : Int) : Refuses (timeOfDay hour minute second) :=
  Halts.ite (halts_ok _) refuses_unusable

/-- Times that are not times of a day are refused. -/
theorem refuses_timesOfDay (hours minutes seconds : List Int) : Refuses (timesOfDay hours minutes seconds) :=
  (halts_mapM (fun _ => halts_mapM (fun _ => halts_mapM (fun _ => refuses_timeOfDay _ _ _) _) _) _).bind
    fun _ => halts_ok _

/-- A part of the time that no interval reaches is refused. -/
theorem refuses_timeValues (given : Option (List Int)) (interval start cycle : Int) (same finer : Bool) :
    Refuses (timeValues given interval start cycle same finer) := by
  unfold timeValues
  split
  · exact halts_ok _
  · exact Halts.ite (Halts.ite refuses_unusable (halts_ok _)) (halts_ok _)

/-- Parts that make no rule are refused. -/
theorem Parts.refuses_toRule (p : Parts) (start : Moment) : Refuses (p.toRule start) := by
  unfold Parts.toRule
  dsimp only
  refine Halts.ite rfl (Halts.ite rfl ?_)
  refine (refuses_timeValues ..).bind fun hours => (refuses_timeValues ..).bind fun minutes =>
    (refuses_timeValues ..).bind fun seconds => Halts.ite ?_ ?_
  · exact (refuses_timesOfDay hours minutes seconds).bind fun _ => halts_ok _
  · exact (halts_ok []).bind fun _ => halts_ok _

/-! ## Properties of a rule text -/

/-- Parameters of a property of dates that cannot be used are refused, or a zone of theirs is not found. -/
theorem reads_dateParameters (zones parameters : List (List Char)) :
    Reads dates (dateParameters dates zones parameters) := by
  refine Halts.bind (halts_foldlM (fun known parameter => ?_) _ _) fun _ => halts_ok _
  refine Halts.ite ?_ (Halts.ite (Halts.ite reads_unusable (halts_ok _)) reads_unusable)
  dsimp only
  split
  · exact (reads_zone _).bind fun _ => halts_ok _
  · exact halts_ok _

/-- What is not a list of dates is refused, or a date of it is not read. -/
theorem reads_readDates (dial : Option Dial) (value : List Char) : Reads dates (readDates dates dial value) := by
  refine halts_mapM (fun date => (reads_date _).bind fun moment => ?_) _
  split
  · exact halts_ok _
  · split
    · exact halts_ok _
    · exact reads_unusable

/-- A property that cannot be read is refused, or a date or a zone of it is not read. -/
theorem Properties.reads_line (zones : List (List Char)) (p : Properties) (line : List Char) :
    Reads dates (Properties.line dates zones p line) := by
  unfold Properties.line
  dsimp only
  split
  · exact Halts.ite (halts_ok _) reads_unusable
  · exact Halts.ite (halts_ok _) reads_unusable
  · exact Halts.ite (halts_ok _) reads_unusable
  · exact (reads_dateParameters _ _).bind fun _ => (reads_readDates _ _).bind fun _ => halts_ok _
  · refine (reads_dateParameters _ _).bind fun _ => (reads_readDates _ _).bind fun _ => ?_
    split
    · exact halts_ok _
    · exact reads_unusable
  · exact reads_unusable

/-- A rule text that cannot be read is refused, or a date or a zone of it is not read. -/
theorem reads_readSet (start : Moment) (rule : Text) : Reads dates (readSet dates start rule) := by
  have hrules : ∀ (start : Moment) (values : List (List Char)),
      Reads dates (values.mapM fun value => do (← readParts dates value).toRule start) := fun start =>
    halts_mapM fun _ => (reads_readParts _).bind fun p => (p.refuses_toRule start).reads
  exact (halts_foldlM (fun p line => p.reads_line _ line) _ _).bind fun _ => (hrules _ _).bind fun _ =>
    (halts_mapM (reads_readDates none) _).bind fun _ => (hrules _ _).bind fun _ => halts_ok _

end Recurrence

end Showrunner

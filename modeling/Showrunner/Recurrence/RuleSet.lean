import Showrunner.Recurrence.Heap
import Showrunner.Recurrence.Series

/-!
# Sets of rules

A set has rules and dates whose occurrences it contains, and rules and dates whose occurrences
it leaves out. Its occurrences are found by merging the parts of a heap: the earliest occurrence of
any part comes first, the same moment counts once, and it is dropped if an excluding part has the
same moment. Moments that do not compare make the set unusable where they meet.
-/

namespace Showrunner

namespace Recurrence

/-- Rules and dates that a set contains, and those that it leaves out. -/
structure RuleSet where
  rules : List Rule
  dates : List Moment
  exceptRules : List Rule
  exceptDates : List Moment

/-- A part of a merge: an occurrence, and what comes after it. -/
structure Part where
  head : Moment
  tail : List Moment ⊕ Series

/-- What becomes of a part when its occurrence is taken. -/
inductive Moved
  | part (p : Part)
  | finished
  | endless
  | halt (h : Halt)

/-- Take the next occurrence of dates or of a series. -/
def moved : List Moment ⊕ Series → Moved
  | .inl [] => .finished
  | .inl (m :: rest) => .part ⟨m, .inl rest⟩
  | .inr series =>
      match series.next with
      | .occurrence w rest => .part ⟨series.rule.moment w, .inr rest⟩
      | .finished => .finished
      | .endless => .endless
      | .halt h => .halt h

/-- How a search in a set ends. -/
inductive Found
  | next (s : Stamp)
  | none
  | endless
  | halt (h : Halt)

/-- Decide whether the occurrence of a part comes before that of another one. -/
def precedes (p q : Part) : Except Halt Bool :=
  if p.head.comparable q.head then .ok (p.head.before q.head) else .error .unusable

/-- Put moments in order. -/
def sortMoments (moments : List Moment) : Except Halt (List Moment) :=
  match moments with
  | [] => .ok []
  | m :: rest =>
      if rest.all m.comparable then .ok (moments.mergeSort fun a b => !b.before a)
      else .error .unusable

/-- A search is over, or it goes on with a value. -/
abbrev Search (α : Type) := Except Found α

/-- Begin the parts of a merge: the dates, and each rule's series. -/
def beginParts (dates : List Moment) (rules : List Rule) : Search (List Part) := do
  let halting {α : Type} (e : Except Halt α) : Search α := e.mapError .halt
  let dates ← halting (sortMoments dates)
  let begin (part : List Moment ⊕ Series) : Search (List Part) :=
    match moved part with
    | .part p => .ok [p]
    | .finished => .ok []
    | .endless => .error .endless
    | .halt h => .error (.halt h)
  let first ← begin (.inl dates)
  let rest ← rules.mapM fun r => do begin (.inr (← halting r.series))
  pure (first ++ rest.flatten)

/-- Make a heap of the parts of a merge. -/
def orderParts (parts : List Part) : Search (List Part) := (Heap.build precedes parts).mapError .halt

/-- Take the occurrence of the first part. -/
def stepParts (p : Part) (rest : List Part) : Search (List Part) :=
  match moved p.tail with
  | .part p => (Heap.replace precedes p rest).mapError .halt
  | .finished => (Heap.pop precedes rest).mapError .halt
  | .endless => .error .endless
  | .halt h => .error (.halt h)

/-- Pass over what is left out before a moment. -/
def passBefore (m : Moment) : (steps : Nat) → List Part → Search (List Part)
  | _, [] => .ok []
  | 0, _ => .error .endless
  | steps + 1, p :: rest =>
      if !p.head.comparable m then .error (.halt .unusable)
      else if p.head.before m then do passBefore m steps (← stepParts p rest)
      else .ok (p :: rest)

/-- Search for the first occurrence after a moment. -/
def searchAfter (moment : Moment) (last : Option Moment) :
    (steps : Nat) → List Part → List Part → Search Stamp
  | _, [], _ => .error .none
  | 0, _, _ => .error .endless
  | steps + 1, p :: rest, excepted => do
      if last.any p.head.same then
        searchAfter moment last steps (← stepParts p rest) excepted
      else
        let excepted ← passBefore p.head (steps + 1) excepted
        let kept := !(excepted.head?.any fun q => q.head.same p.head)
        if kept && !moment.comparable p.head then .error (.halt .unusable)
        else if kept && moment.before p.head then .ok p.head.stamp
        else searchAfter moment (some p.head) steps (← stepParts p rest) excepted

/-- How many occurrences a search takes, those that it passes over included: the dates, and of each rule
what its periods hold at most. -/
def RuleSet.stepLimit (s : RuleSet) : Nat :=
  (s.dates ++ s.exceptDates).length + ((s.rules ++ s.exceptRules).map Rule.occurrenceLimit).foldr (· + ·) 0

/-- The first occurrence of a set after a moment. -/
def RuleSet.after (s : RuleSet) (moment : Moment) : Found :=
  let result : Search Stamp := do
    let parts ← beginParts s.dates s.rules
    let excepted ← beginParts s.exceptDates s.exceptRules
    let parts ← orderParts parts
    let excepted ← orderParts excepted
    searchAfter moment none s.stepLimit parts excepted
  match result with
  | .ok s => .next s
  | .error found => found

end Recurrence

end Showrunner

import Showrunner.Recurrence.Read
import Showrunner.Time.Iso

/-!
# The next occurrence of a plan

A plan without a rule runs once, and so does a plan whose rule cannot be used. Otherwise the next
occurrence is the first one of the rule, counted from the anchor, that lies after the latest
start. Whether it is already past does not matter.
-/

namespace Showrunner

namespace Recurrence

/-- What comes after an occurrence: another one, nothing, nothing because the rule cannot be used,
or a search that never ends. -/
inductive Advance
  | next (s : Stamp)
  | last
  | ignored
  | endless
deriving DecidableEq, Repr

/-- The next occurrence after a reading of universal time, counted from another one. -/
def advanceUtc (dates : Dates) (current start : Wall) (rule : Text) : Except Fault Advance :=
  let found :=
    match readSet dates (.utc start) rule.trim with
    | .ok set => set.after (.utc current)
    | .error h => .halt h
  match found with
  | .next s => .ok (.next s)
  | .none => .ok .last
  | .endless => .ok .endless
  | .halt .unusable => .ok .ignored
  | .halt (.fault f) => .error f

/-- Decide whether a plan has a rule that says anything. -/
def hasRule (rule : Option Text) : Bool := rule.any (!·.isBlank)

/-- The next occurrence of a plan. -/
def advance (dates : Dates) (startsAt : Stamp) (rule : Option Text) (anchor : Option Stamp) :
    Except Fault Advance :=
  match rule with
  | none => .ok .last
  | some rule =>
      if rule.isBlank then .ok .last
      else do
        let current ← startsAt.toUtc
        let start ←
          match anchor with
          | some anchor => anchor.toUtc
          | none => pure current
        advanceUtc dates current.wall start.wall rule

/-- The next occurrence after a start given as ISO 8601 text; without a rule the texts are not
read. -/
def advanceText (dates : Dates) (startsAt : Text) (rule : Option Text) (anchor : Option Text) :
    Except Fault Advance :=
  if hasRule rule then do
    let startsAt ← (← Iso.read startsAt.toChars).toUtc
    let anchor ← anchor.mapM fun anchor => Iso.read anchor.toChars
    advance dates startsAt rule anchor
  else .ok .last

/-- The stamp of the next occurrence, if there is one. -/
def Advance.stamp? : Advance → Option Stamp
  | .next s => some s
  | _ => none

end Recurrence

end Showrunner

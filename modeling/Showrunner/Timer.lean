/-!
# Periodic triggers

A trigger fires at an interval while it is running. One whose interval is not positive is left to
an outside clock and never starts.
-/

namespace Showrunner

/-- A periodic trigger. -/
structure Timer where
  interval : Int
  running : Bool
deriving DecidableEq, Repr

namespace Timer

/-- A trigger that has not been started. -/
def idle (interval : Int) : Timer := ⟨interval, false⟩

/-- Start a trigger. -/
def start (t : Timer) : Timer := { t with running := t.running || 0 < t.interval }

/-- Stop a trigger. -/
def stop (t : Timer) : Timer := { t with running := false }

end Timer

end Showrunner

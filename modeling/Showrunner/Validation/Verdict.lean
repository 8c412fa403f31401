import Showrunner.Fault

/-!
# Verdicts

A validation ends with a value or with every issue that it found. Two verdicts combine to a pair
of values, or to the issues of the first followed by those of the second, so the order of the
issues is the order in which the parts are declared.
-/

namespace Showrunner

/-- A value, or the issues found instead. -/
inductive Verdict (α : Type)
  | valid (a : α)
  | invalid (issues : List Issue)

namespace Verdict

variable {α β : Type}

/-- Apply a function to the value. -/
def map (f : α → β) : Verdict α → Verdict β
  | .valid a => .valid (f a)
  | .invalid issues => .invalid issues

/-- Combine two verdicts and keep the issues of both. -/
def both : Verdict α → Verdict β → Verdict (α × β)
  | .valid a, .valid b => .valid (a, b)
  | .valid _, .invalid issues => .invalid issues
  | .invalid issues, .valid _ => .invalid issues
  | .invalid first, .invalid second => .invalid (first ++ second)

/-- Apply the function of one verdict to the value of another and keep the issues of both. -/
def ap (f : Verdict (α → β)) (a : Verdict α) : Verdict β := (both f a).map fun (f, a) => f a

/-- Check a value further. -/
def andThen (v : Verdict α) (f : α → Verdict β) : Verdict β :=
  match v with
  | .valid a => f a
  | .invalid issues => .invalid issues

instance : Applicative Verdict where
  pure := .valid
  seq f a := ap f (a ())

/-- See the issues of a part from one step further out. -/
def under (step : Step) : Verdict α → Verdict α
  | .valid a => .valid a
  | .invalid issues => .invalid (issues.map (·.under step))

/-- Combine a list of verdicts. -/
def all : List (Verdict α) → Verdict (List α)
  | [] => .valid []
  | v :: rest => (both v (all rest)).map fun (a, tail) => a :: tail

/-- The value, if there is one. -/
def toOption : Verdict α → Option α
  | .valid a => some a
  | .invalid _ => none

/-- The issues, none for a value. -/
def issues : Verdict α → List Issue
  | .valid _ => []
  | .invalid issues => issues

/-- The value, or the issues as a fault. -/
def toExcept : Verdict α → Except Fault α
  | .valid a => .ok a
  | .invalid issues => .error (.invalid issues)

end Verdict

end Showrunner

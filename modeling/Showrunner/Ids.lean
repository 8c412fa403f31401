import Showrunner.Text.Basic

/-!
# Fresh ids

The things that a service makes are numbered from one, each kind by itself. A number that has been
drawn is never drawn again, whether the thing came to be or not.
-/

namespace Showrunner

/-- What is given an id. -/
inductive Made
  | definition
  | plan
  | event
  | workflow
deriving DecidableEq, Repr

/-- Name what is given an id. -/
def Made.name : Made → String
  | .definition => "def"
  | .plan => "plan"
  | .event => "event"
  | .workflow => "wf"

/-- How many ids of each kind have been drawn. -/
structure Ids where
  definitions : Nat
  plans : Nat
  events : Nat
  workflows : Nat
deriving DecidableEq, Repr

namespace Ids

/-- No ids have been drawn. -/
def start : Ids := ⟨0, 0, 0, 0⟩

/-- Count the drawn ids of a kind. -/
def drawn (ids : Ids) : Made → Nat
  | .definition => ids.definitions
  | .plan => ids.plans
  | .event => ids.events
  | .workflow => ids.workflows

/-- Draw the next id of a kind. -/
def next (ids : Ids) (made : Made) : Ids × Text :=
  let n := ids.drawn made + 1
  let ids :=
    match made with
    | .definition => { ids with definitions := n }
    | .plan => { ids with plans := n }
    | .event => { ids with events := n }
    | .workflow => { ids with workflows := n }
  (ids, text made.name ++ text "-" ++ Text.ofNat n)

end Ids

end Showrunner

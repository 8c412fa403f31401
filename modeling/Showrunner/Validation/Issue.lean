import Showrunner.Json.Basic

/-!
# Issues with a value

An issue says what is wrong with a part of a value, where the part stands, and what stands there.
Its kind is a short name that does not depend on the value; its message is for people; its
details repeat the bounds that a message mentions.
-/

namespace Showrunner

/-- One step from a value to a part of it. -/
inductive Step
  | field (name : Text)
  | item (index : Nat)
deriving DecidableEq, Repr

/-- Write a step as a text. -/
def Step.toText : Step → Text
  | .field name => name
  | .item index => Text.ofNat index

/-- Something wrong with a part of a value. -/
structure Issue where
  kind : Text
  place : List Step
  message : Text
  given : Json
  details : Fields

/-- See an issue from one step further out. -/
def Issue.under (step : Step) (issue : Issue) : Issue := { issue with place := step :: issue.place }

/-- Write the place of an issue with points between the steps. -/
def Issue.placeText (issue : Issue) : Text :=
  Text.joined (text ".") (issue.place.map Step.toText)

end Showrunner

import Showrunner.Recurrence.Rule
import Showrunner.Studio
import Showrunner.Web.Problem

/-!
# Answers on a stage

Requests are answered on a stage: a studio and what lies outside of it, which is the time, the reading
of dates and the rendering of plans. None of them sees the studio. An answer changes the stage and is a value or a
problem; one with a problem keeps what was done before the problem arose.
-/

namespace Showrunner

namespace Web

variable {σ α : Type}

/-- How a service tells the time, reads dates and has plans rendered. -/
structure Surroundings (σ : Type) where
  now : σ → Stamp
  dates : σ → Recurrence.Dates
  render : Plan → σ → σ × Except Fault Json

/-- A studio and what lies outside of it. -/
structure Stage (σ : Type) where
  studio : Studio
  outside : σ

/-- An answer changes the stage, and is a value or a problem. -/
abbrev Answer (σ α : Type) := Stage σ × Except Problem α

namespace Stage

/-- Answer with a value that the stage already has. -/
def found (s : Stage σ) (result : Except Fault α) : Answer σ α := (s, result.mapError .fault)

/-- Keep the studio that an operation leaves, and give its faults the problems they mean. -/
def kept (s : Stage σ) (meaning : Fault → Problem) (done : Studio × Except Fault α) : Answer σ α :=
  ({ s with studio := done.1 }, done.2.mapError meaning)

end Stage

/-- Write the value of an answer. -/
def Answer.map {β : Type} (f : α → β) (a : Answer σ α) : Answer σ β := (a.1, a.2.map f)

/-- Refuse an answer that found nothing. -/
def Answer.orMissing (words : String) (a : Answer σ (Option α)) : Answer σ α :=
  (a.1, a.2.bind fun
    | some v => .ok v
    | none => .error (.saying 404 (text words)))

/-- Go on with the value of an answer. -/
def Answer.andThen {β : Type} (a : Answer σ α) (f : Stage σ → α → Answer σ β) : Answer σ β :=
  match a with
  | (s, .ok v) => f s v
  | (s, .error problem) => (s, .error problem)

/-- Go on with what a request brings, before the stage is touched. -/
def reading (s : Stage σ) (read : Except Problem α) (f : α → Answer σ Json) : Answer σ Json :=
  match read with
  | .ok v => f v
  | .error problem => (s, .error problem)

/-- Write a list of values. -/
def dumpAll (dump : α → Json) (items : List α) : Json := .arr (items.map dump)

end Web

end Showrunner

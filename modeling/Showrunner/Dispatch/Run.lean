import Showrunner.Plan.Report
import Showrunner.Recurrence.Advance

/-!
# Dispatch runs

A run claims the due plans and works through them: each is rendered and then finished, with its
next start if its rule has one. What goes wrong with one plan is recorded with that plan and the
run goes on; only a claim that fails ends the run.

A run works on a state that it does not look into: a host says how the state tells the time, how
dates are read in it, how plans are claimed, rendered and finished, and how a warning is kept.

The search for a next start need not come to an end. Then nothing comes of the plan, the plans after
it are not begun, and the run does not come back: what it comes to is none.
-/

namespace Showrunner

namespace Dispatch

/-- What a run needs of the state that it works on. -/
structure Host (σ : Type) where
  now : σ → Stamp
  dates : σ → Recurrence.Dates
  claim : Int → Stamp → Option Int → σ → σ × Except Fault (List Plan)
  render : Plan → σ → σ × Except Fault Json
  complete : Text → Option Stamp → Stamp → σ → σ × Except Fault Bool
  fail : Text → Text → Stamp → σ → σ × Except Fault Bool
  warn : Text → σ → σ

variable {σ : Type}

/-- How many plans a run claims unless told otherwise. -/
def defaultLimit : Int := 20

/-- The next start of a plan that has been rendered; none if the search for it never ends. -/
def nextStart (dates : Recurrence.Dates) (p : Plan) : Option (Except Fault (Option Stamp)) :=
  match Recurrence.advance dates p.startsAt p.rrule p.anchorAt with
  | .error fault => some (.error fault)
  | .ok (.next t) => some (.ok (some t))
  | .ok .last | .ok .ignored => some (.ok none)
  | .ok .endless => none

/-- What is told about a plan that was finished. -/
def successText : Option Stamp → Text
  | none => text "Successfully dispatched and marked completed"
  | some next => text "Successfully dispatched; next run at " ++ Stamp.reportText next.wall

/-- Render a plan and find its next start. -/
def attempt (host : Host σ) (p : Plan) (s : σ) : σ × Option (Except Fault (Option Stamp)) :=
  match host.render p s with
  | (s, .ok _) => (s, nextStart (host.dates s) p)
  | (s, .error fault) => (s, some (.error fault))

/-- Record a failure with its plan. -/
def recordFailure (host : Host σ) (p : Plan) (fault : Fault) (s : σ) : σ × Plan.Result :=
  let message := fault.shown
  let s := host.warn (text "Plan " ++ p.id ++ text " failed: " ++ message) s
  let s :=
    match host.fail p.id (text "Dispatch failed: " ++ message) (host.now s) s with
    | (s, .ok _) => s
    | (s, .error _) =>
        host.warn (text "Could not mark plan " ++ p.id ++ text " as failed") s
  (s, ⟨p.id, .failed, message⟩)

/-- Finish a plan that was rendered, or record why it was not. -/
def settle (host : Host σ) (p : Plan) (found : Except Fault (Option Stamp)) (s : σ) :
    σ × Plan.Result :=
  match found with
  | .error fault => recordFailure host p fault s
  | .ok next =>
      match host.complete p.id next (host.now s) s with
      | (s, .error fault) => recordFailure host p fault s
      | (s, .ok true) => (s, ⟨p.id, .success, successText next⟩)
      | (s, .ok false) =>
          (host.warn
              (text "Plan " ++ p.id ++ text " was no longer processing; completion not recorded") s,
            ⟨p.id, .success, successText next⟩)

/-- Work through one plan. -/
def runPlan (host : Host σ) (p : Plan) (s : σ) : σ × Option Plan.Result :=
  match attempt host p s with
  | (s, none) => (s, none)
  | (s, some found) =>
      let (s, result) := settle host p found s
      (s, some result)

/-- Work through plans in order. -/
def runPlans (host : Host σ) : List Plan → σ → σ × Option (List Plan.Result)
  | [], s => (s, some [])
  | p :: rest, s =>
      match runPlan host p s with
      | (s, none) => (s, none)
      | (s, some result) =>
          let (s, results) := runPlans host rest s
          (s, results.map (result :: ·))

/-- Claim the due plans, at most `limit` of them, and work through them. -/
def run (host : Host σ) (limit : Int) (staleAfter : Option Int) (s : σ) :
    σ × Option (Except Fault Plan.Report) :=
  match host.claim limit (host.now s) staleAfter s with
  | (s, .error fault) => (s, some (.error fault))
  | (s, .ok plans) =>
      let (s, results) := runPlans host plans s
      (s, results.map fun results => .ok (Plan.Report.ofResults results))

/-- Run on a trigger: a claim that could not run is warned about and leaves no report. -/
def tick (host : Host σ) (limit : Int) (staleAfter : Option Int) (s : σ) :
    σ × Option (Except Fault (Option Plan.Report)) :=
  match run host limit staleAfter s with
  | (s, none) => (s, none)
  | (s, some (.ok report)) => (s, some (.ok (some report)))
  | (s, some (.error (.claim _))) =>
      (host.warn (text "[Scheduler] Dispatch tick could not claim plans") s, some (.ok none))
  | (s, some (.error fault)) => (s, some (.error fault))

end Dispatch

end Showrunner

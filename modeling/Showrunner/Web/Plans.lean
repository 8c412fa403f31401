import Showrunner.Dispatch.Run
import Showrunner.Web.Service
import Showrunner.Web.Stage

/-!
# Answers about content plans

A plan is put back on the schedule only if it failed or is completed. A dispatch works on the
stage itself: it claims from the studio's store, renders outside, and finishes in the store. One whose
run never ends is not answered.
-/

namespace Showrunner

namespace Web

variable {σ : Type}

/-- Say that there is no such plan. -/
def noPlan : String := "Content plan not found"

/-- Say that a plan of a status does not go back on the schedule. -/
def notRequeueable (status : Plan.Status) : Problem :=
  .saying 409 (text ("Cannot requeue a " ++ status.name ++ " plan"))

/-- Say that a plan changed while it was put back on the schedule. -/
def changedMeanwhile : Problem := .saying 409 (text "Content plan changed state, try again")

/-- Put a plan back on the schedule. -/
def requeuePlan (id : Text) (startsAt : Option Stamp) (s : Stage σ) : Answer σ Json :=
  ((s.found (s.studio.store.getPlan id)).orMissing noPlan).andThen fun s p =>
    if p.status.isRequeueable then
      (s.kept .fault (s.studio.keep (s.studio.store.requeuePlan id startsAt))).andThen fun s requeued =>
        match requeued with
        | some p => (s, .ok p.dump)
        | none => (s, .error changedMeanwhile)
    else (s, .error (notRequeueable p.status))

/-- Claim due plans and keep the store that the claim leaves. -/
def Stage.claim (limit : Int) (now : Stamp) (staleAfter : Option Int) (s : Stage σ) :
    Stage σ × Except Fault (List Plan) :=
  match s.studio.store.claim limit now staleAfter with
  | .ok claimed =>
      ({ s with studio := { s.studio with store := claimed.store } }, .ok claimed.plans)
  | .error fault => (s, .error fault)

/-- A stage as the host of a dispatch run. -/
def host (outer : Surroundings σ) : Dispatch.Host (Stage σ) :=
  { now := fun s => outer.now s.outside
    dates := fun s => outer.dates s.outside
    claim := Stage.claim
    render := fun p s =>
      let (outside, result) := outer.render p s.outside
      ({ s with outside := outside }, result)
    complete := fun id next now s =>
      let (studio, done) := s.studio.keep (s.studio.store.markCompleted id next now)
      ({ s with studio := studio }, done)
    fail := fun id message now s =>
      let (studio, done) := s.studio.keep (s.studio.store.markFailed id message now)
      ({ s with studio := studio }, done)
    warn := fun _ s => s }

/-- What it means to a caller that a run has no report. -/
def dispatchProblem : Fault → Problem
  | .claim message =>
      .refused 503 (.obj [(text "error", .str (text "Claim failed")), (text "message", .str message)])
  | fault => .fault fault

/-- Dispatch due plans. -/
def dispatch (service : Service) (outer : Surroundings σ) (limit : Option Int) (s : Stage σ) :
    Answer σ Json :=
  let (s, done) :=
    Dispatch.run (host outer) (limit.getD service.batchLimit) service.staleAfter s
  match done with
  | some (.ok report) => (s, .ok report.dump)
  | some (.error fault) => (s, .error (dispatchProblem fault))
  | none => (s, .error .endless)

end Web

end Showrunner

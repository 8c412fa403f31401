import Showrunner.Plan.Basic

/-!
# Reports of a run

A run reports one result for each plan that it claimed, in the order of the claim, and counts
successes and failures.
-/

namespace Showrunner

namespace Plan

/-- How the run of a plan ended. -/
inductive Ending
  | success
  | failed
deriving DecidableEq, Repr

/-- Name an ending. -/
def Ending.name : Ending → String
  | .success => "success"
  | .failed => "failed"

/-- The result of one plan's run. -/
structure Result where
  planId : Text
  status : Ending
  message : Text
deriving DecidableEq, Repr

/-- What a run reports. -/
structure Report where
  processed : Int
  successful : Int
  failed : Int
  results : List Result
deriving DecidableEq, Repr

namespace Report

/-- The report of a run that claimed nothing. -/
def empty : Report := ⟨0, 0, 0, []⟩

/-- Count the results of a run. -/
def ofResults (results : List Result) : Report :=
  let successful := results.countP (·.status = .success)
  ⟨results.length, successful, results.length - successful, results⟩

end Report

open Reader

/-- Read a result. -/
def Result.read (origin : Origin) : Reader Result :=
  record origin "PlanResult" fun fields =>
    Result.mk <$> required "plan_id" string fields
      <*> required "status"
        (choice "literal_error" ([Ending.success, Ending.failed].map fun e => (e.name, e))) fields
      <*> required "message" string fields

/-- Read a report. -/
def Report.read (origin : Origin) : Reader Report :=
  record origin "RunReport" fun fields =>
    Report.mk <$> optional ["processed"] 0 integer fields
      <*> optional ["successful"] 0 integer fields
      <*> optional ["failed"] 0 integer fields
      <*> optional ["results"] [] (list (Result.read origin)) fields

/-- Write a result. -/
def Result.dump (r : Result) : Json :=
  .obj [(text "plan_id", .str r.planId), (text "status", .str (text r.status.name)),
    (text "message", .str r.message)]

/-- Write a report. -/
def Report.dump (r : Report) : Json :=
  .obj [(text "processed", .int r.processed), (text "successful", .int r.successful),
    (text "failed", .int r.failed), (text "results", .arr (r.results.map Result.dump))]

end Plan

end Showrunner

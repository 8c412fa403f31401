import Showrunner.Board.Check
import Showrunner.Web.Service
import Showrunner.Web.Stage

/-!
# Answers about workflows

A submission is compiled without being kept, saved as a new workflow, or saved as the next
version of one. Only a board without errors is saved; a board with errors is compiled, and told
its errors behind its warnings.
-/

namespace Showrunner

namespace Web

variable {σ : Type}

/-- Write a workflow. -/
def dumpWorkflow (w : Workflow) : Json := w.dump "actionKind"

/-- Refuse a board with errors. -/
def refusedBoard (errors : List Text) : Problem :=
  .refused 422 (.obj [(text "errors", Workflow.dumpTexts errors)])

/-- Compile a board and tell what a check reports. -/
def compile (service : Service) (submission : Workflow.Submission) (s : Stage σ) : Answer σ Json :=
  let report := submission.board.check (some service.registry)
  let (studio, id) := s.studio.draw .definition
  let compiled : Workflow.Compiled :=
    ⟨submission.board.compile id submission.name 1, report.warnings ++ report.errors⟩
  ({ s with studio := studio }, .ok compiled.dump)

/-- The workflow that a submission becomes; its board has to be free of errors. -/
def recordOf (service : Service) (submission : Workflow.Submission) (id : Text) (version : Int)
    (createdAt : Option Stamp) (now : Stamp) (s : Stage σ) : Answer σ Workflow :=
  let report := submission.board.check (some service.registry)
  if report.errors.isEmpty then
    let (studio, definitionId) := s.studio.draw .definition
    ({ s with studio := studio },
      .ok
        { id := id
          name := submission.name
          version := version
          board := submission.board
          definition := submission.board.compile definitionId submission.name version
          warnings := report.warnings
          createdAt := createdAt.getD now
          updatedAt := now })
  else (s, .error (refusedBoard report.errors))

/-- Save a submission as a new workflow. -/
def createWorkflow (service : Service) (submission : Workflow.Submission) (now : Stamp)
    (s : Stage σ) : Answer σ Json :=
  let (studio, id) := s.studio.draw .workflow
  (recordOf service submission id 1 none now { s with studio := studio }).andThen fun s w =>
    (s.kept .fault (s.studio.keep (s.studio.store.createWorkflow w))).map dumpWorkflow

/-- Say that there is no such workflow. -/
def noWorkflow : String := "Workflow not found"

/-- Save a submission as the next version of a workflow. -/
def updateWorkflow (service : Service) (id : Text) (submission : Workflow.Submission) (now : Stamp)
    (s : Stage σ) : Answer σ Json :=
  ((s.found (s.studio.store.getWorkflow id)).orMissing noWorkflow).andThen fun s current =>
    (recordOf service submission id (current.version + 1) (some current.createdAt) now s).andThen
      fun s w =>
        ((s.kept .fault (s.studio.keep (s.studio.store.updateWorkflow id w))).orMissing
          noWorkflow).map dumpWorkflow

end Web

end Showrunner

import Showrunner.Web.Body
import Showrunner.Web.Plans
import Showrunner.Web.Route
import Showrunner.Web.Webhooks
import Showrunner.Web.Workflows

/-!
# Answering requests

A preflight is answered at once. Every other request is routed to an endpoint, which reads the
request in full before it touches the stage. A fault, and a document that cannot be sent, end in
the same response, which tells nothing and carries no headers. Only a request that takes for ever has
no response.
-/

namespace Showrunner

namespace Web

variable {σ : Type}

/-- Answer a request at an endpoint; `token` is the next token to be given away. -/
def answer (service : Service) (outer : Surroundings σ) (token : Text) (r : Request)
    (target : Target) (s : Stage σ) : Endpoint → Answer σ Json
  | .health => (s, .ok (.obj [(text "status", .str (text "ok"))]))
  | .catalog =>
      (s, .ok (dumpAll (fun (spec : NodeKind.Spec) =>
        .obj [(text "kind", .str spec.kind), (text "description", .str spec.description)])
          service.registry.sorted))
  | .compile =>
      reading s (r.required (Workflow.Submission.read .request "CompileRequest")) fun submission =>
        compile service submission s
  | .createWorkflow =>
      reading s (r.required (Workflow.Submission.read .request "WorkflowSaveRequest")) fun submission =>
        createWorkflow service submission (outer.now s.outside) s
  | .listWorkflows => (s.found s.studio.store.listWorkflows).map (dumpAll dumpWorkflow)
  | .getWorkflow id =>
      ((s.found (s.studio.store.getWorkflow id)).orMissing noWorkflow).map dumpWorkflow
  | .updateWorkflow id =>
      reading s (r.required (Workflow.Submission.read .request "WorkflowSaveRequest")) fun submission =>
        updateWorkflow service id submission (outer.now s.outside) s
  | .getDefinition id =>
      ((s.found (s.studio.store.getDefinition id)).orMissing noWorkflow).map Definition.dump
  | .arm =>
      reading s (r.required (Webhook.ArmRequest.read .request)) fun asked =>
        (s.kept armProblem (s.studio.arm token (.str asked.workflowId) (.str asked.nodeId)
          (outer.now s.outside))).map Webhook.Armed.dump
  | .capture token => capture token r (outer.now s.outside) s
  | .listEvents workflowId =>
      (s.found (s.studio.store.listEvents workflowId (target.parameter? "node_id"))).map
        (dumpAll Webhook.Event.dump)
  | .createPlan =>
      reading s (r.required (Plan.Draft.read .request)) fun draft =>
        (s.kept .fault (s.studio.createPlan draft (outer.now s.outside))).map Plan.dump
  | .listPlans =>
      reading s (target.readParameter "status" Plan.Status.read) fun status =>
        (s.found (s.studio.store.listPlans status)).map (dumpAll Plan.dump)
  | .getPlan id => ((s.found (s.studio.store.getPlan id)).orMissing noPlan).map Plan.dump
  | .requeuePlan id =>
      reading s (r.optional (Plan.Requeue.read .request)) fun asked =>
        requeuePlan id (asked.bind (·.startsAt)) s
  | .dispatch =>
      reading s (target.readParameter "limit" (Reader.integerBetween 1 500)) fun limit =>
        dispatch service outer limit s

/-- The response to an answer, if there is one; a document that cannot be sent is a failure. -/
def responseOf : Except Problem Json → Option Response
  | .ok v => some (.ofDocument 200 v [])
  | .error problem => problem.response

/-- What a redirection keeps of an address. -/
def keptInAddress : List Char := ":/%#?=@[]!$&'()*+,;".toList

/-- Send a request to another path. -/
def redirection (r : Request) (target : Target) (path : Text) : Response :=
  let host := (r.headers.get? "host").getD Request.hostName
  let query := if target.query.isEmpty then [] else text "?" ++ target.query
  let address := text "http://" ++ host ++ path ++ query
  ⟨307, .plain [], [(text "location", Percent.encode keptInAddress address)]⟩

/-- Answer a request by its route. -/
def routed (service : Service) (outer : Surroundings σ) (token : Text) (r : Request) (s : Stage σ) :
    Stage σ × Option Response :=
  let target := Target.read r.target
  match destination r.method target.path with
  | .endpoint e =>
      let (s, result) := answer service outer token r target s e
      (s, responseOf result)
  | .otherMethod allowed =>
      (s, some (.ofDetail 405 (.str (text "Method Not Allowed")) [(text "allow", text allowed)]))
  | .elsewhere path => (s, some (redirection r target path))
  | .nowhere => (s, some (.ofDetail 404 (.str (text "Not Found")) []))

/-- Send a response: one that failed says nothing else, and only its head answers `HEAD`. -/
def send (service : Service) (r : Request) (response : Response) : Response :=
  let sent :=
    if response.status = 500 ∨ !response.canBeSent then Response.failure
    else service.origins.mark r response
  if r.method = text "HEAD" then sent.headOnly else sent

/-- Answer a request. -/
def handle (service : Service) (outer : Surroundings σ) (token : Text) (r : Request) (s : Stage σ) :
    Stage σ × Option Response :=
  match service.origins.preflight? r with
  | some response => (s, some response)
  | none =>
      let (s, response) := routed service outer token r s
      (s, response.map (send service r))

end Web

end Showrunner

import Showrunner.Time.Write
import Showrunner.Validation.Reader

/-!
# Webhook tests and captured events

An author arms a test for a node of a workflow and gets a token and an address. A request to
the address is captured as an event of that node: the payload, the headers and the time.
-/

namespace Showrunner

namespace Webhook

open Reader

/-- What is asked when a test is armed. -/
structure ArmRequest where
  workflowId : Text
  nodeId : Text

/-- A test that waits for a request. -/
structure Session where
  token : Text
  workflowId : Text
  nodeId : Text
  expiresAt : Stamp
deriving DecidableEq, Repr

/-- What an author is told about an armed test. -/
structure Armed where
  token : Text
  url : Text
  expiresAt : Stamp

/-- A captured request. -/
structure Event where
  id : Text
  workflowId : Text
  nodeId : Text
  payload : Json
  headers : List (Text × Text)
  capturedAt : Stamp

/-- Headers as named values. -/
def headerFields (headers : List (Text × Text)) : Fields :=
  headers.map fun (name, v) => (name, .str v)

/-- Read what is asked when a test is armed. -/
def ArmRequest.read (origin : Origin) : Reader ArmRequest :=
  record origin "ArmRequest" fun fields =>
    ArmRequest.mk <$> required "workflow_id" filled fields <*> required "node_id" filled fields

/-- Write what is asked when a test is armed. -/
def ArmRequest.dump (r : ArmRequest) : Json :=
  .obj [(text "workflow_id", .str r.workflowId), (text "node_id", .str r.nodeId)]

/-- Read a waiting test. -/
def Session.read : Reader Session :=
  record .value "WebhookTestSession" fun fields =>
    Session.mk <$> required "token" string fields <*> required "workflow_id" string fields
      <*> required "node_id" string fields <*> required "expires_at" instant fields

/-- Write a waiting test. -/
def Session.dump (s : Session) : Json :=
  .obj [(text "token", .str s.token), (text "workflow_id", .str s.workflowId),
    (text "node_id", .str s.nodeId), (text "expires_at", .str s.expiresAt.toPlainText)]

/-- Read what an author is told about an armed test. -/
def Armed.read : Reader Armed :=
  record .value "ArmedTest" fun fields =>
    Armed.mk <$> required "token" string fields <*> required "webhook_url" string fields
      <*> required "expires_at" instant fields

/-- Write what an author is told about an armed test. -/
def Armed.dump (a : Armed) : Json :=
  .obj [(text "token", .str a.token), (text "webhook_url", .str a.url),
    (text "expires_at", .str a.expiresAt.toPlainText)]

/-- Read a captured event. -/
def Event.read : Reader Event :=
  record .value "CapturedEvent" fun fields =>
    Event.mk <$> required "id" string fields <*> required "workflow_id" string fields
      <*> required "node_id" string fields <*> optional ["payload"] .null any fields
      <*> optional ["headers"] [] (mapping string) fields
      <*> required "captured_at" instant fields

/-- Write a captured event. -/
def Event.dump (e : Event) : Json :=
  .obj [(text "id", .str e.id), (text "workflow_id", .str e.workflowId),
    (text "node_id", .str e.nodeId), (text "payload", e.payload.finiteOnly),
    (text "headers", .obj (headerFields e.headers)),
    (text "captured_at", .str e.capturedAt.toPlainText)]

end Webhook

end Showrunner

import Showrunner.Json.Write
import Showrunner.Store.Columns

/-!
# Captured events in the store

Payload and headers are stored as documents in ASCII, which are written when an event is added and read
when it is listed. Events are listed the latest first.
-/

namespace Showrunner

namespace Store

/-- A stored event as an event. -/
def EventRow.toEvent (r : EventRow) : Except Fault Webhook.Event := do
  let payload ← readColumn r.payload
  let headers ← ((Reader.mapping Reader.string (← readColumn r.headers)).under
    (.field (text "headers"))).toExcept
  pure
    { id := r.id
      workflowId := r.workflowId
      nodeId := r.nodeId
      payload := payload
      headers := headers
      capturedAt := Stamp.utc r.capturedAt }

/-- Add a captured event. -/
def addEvent (s : Store) (e : Webhook.Event) : Except Fault (Store × Webhook.Event) := do
  let capturedAt ← instantOf e.capturedAt
  let rows ← rowsOf .events s.events
  encodable [e.id, e.workflowId, e.nodeId]
  if rows.any (·.id = e.id) then .error (taken .events)
  let row : EventRow :=
    { id := e.id
      workflowId := e.workflowId
      nodeId := e.nodeId
      payload := Json.writeText e.payload
      headers := Json.writeText (.obj (Webhook.headerFields e.headers))
      capturedAt := capturedAt }
  pure ({ s with events := some (rows ++ [row]) }, e)

/-- List the events of a workflow, or of one of its nodes. -/
def listEvents (s : Store) (workflowId : Text) (nodeId : Option Text) :
    Except Fault (List Webhook.Event) := do
  let rows ← rowsOf .events s.events
  encodable (workflowId :: nodeId.toList)
  let kept := rows.filter fun r => r.workflowId = workflowId && nodeId.all (r.nodeId = ·)
  (kept.mergeSort fun a b => b.capturedAt ≤ a.capturedAt).mapM EventRow.toEvent

end Store

end Showrunner

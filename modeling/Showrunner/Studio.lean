import Showrunner.Ids
import Showrunner.Store.Events
import Showrunner.Store.Plans
import Showrunner.Store.Workflows
import Showrunner.Webhook.Cache
import Showrunner.Webhook.Payload
import Showrunner.Webhook.Token
import Showrunner.Text.Case

/-!
# The studio

The studio keeps what outlasts a request: the store, the armed tests and the ids that have been
drawn. Its operations join these three. An operation that fails keeps what it had done to the
tests and the ids before it failed.
-/

namespace Showrunner

/-- What a service keeps. -/
structure Studio where
  store : Store
  cache : Webhook.Cache
  ids : Ids

namespace Studio

/-- The studio of a new service. -/
def empty (cache : Webhook.Cache) : Studio := ⟨Store.empty, cache, Ids.start⟩

/-- Draw an id. -/
def draw (s : Studio) (made : Made) : Studio × Text :=
  let (ids, id) := s.ids.next made
  ({ s with ids := ids }, id)

/-- Keep the store that an operation leaves; one that fails leaves the store alone. -/
def keep {α : Type} (s : Studio) (done : Except Fault (Store × α)) : Studio × Except Fault α :=
  match done with
  | .ok (store, a) => ({ s with store := store }, .ok a)
  | .error fault => (s, .error fault)

/-- Keep the tests that an operation leaves; one that fails leaves the tests alone. -/
def keepTests {α : Type} (s : Studio) (done : Except Fault (Webhook.Cache × α)) :
    Studio × Except Fault α :=
  match done with
  | .ok (cache, a) => ({ s with cache := cache }, .ok a)
  | .error fault => (s, .error fault)

/-- Create a plan under a new id. -/
def createPlan (s : Studio) (draft : Plan.Draft) (now : Stamp) : Studio × Except Fault Plan :=
  let (s, id) := s.draw .plan
  s.keep (s.store.createPlan id draft now)

/-- Recognise an id that says nothing. -/
def saysNothing : Json → Bool
  | .null | .bool false | .int 0 | .str [] | .arr [] | .obj [] => true
  | .float (.finite _ 0 _) => true
  | _ => false

/-- Arm a test for a node of a workflow. Both ids have to say something. -/
def arm (s : Studio) (token : Text) (workflowId nodeId : Json) (now : Stamp) :
    Studio × Except Fault Webhook.Armed :=
  if saysNothing workflowId then (s, .error (.value (text "Workflow ID is required")))
  else if saysNothing nodeId then (s, .error (.value (text "Node ID is required")))
  else s.keepTests (s.cache.armGiven token workflowId nodeId now)

/-- Lower the names of headers; of a name that repeats, the last value counts. -/
def lowerNames (headers : Fields) : Fields :=
  headers.foldl (fun lowered (name, v) => Fields.put name.lower v lowered) []

/-- The event of a request for an armed test. -/
def eventOf (session : Webhook.Session) (id : Text) (body : List UInt8) (headers : Fields)
    (now : Stamp) : Except Fault Webhook.Event := do
  let payload ← Payload.read body
  let headers ← ((Reader.mapping Reader.string (.obj (lowerNames headers))).under
    (.field (text "headers"))).toExcept
  pure ⟨id, session.workflowId, session.nodeId, payload, headers, now⟩

/-- Capture a request for a token: redeem the token, then draw an id, then store the event. -/
def capture (s : Studio) (token : Text) (body : List UInt8) (headers : Fields) (now : Stamp) :
    Studio × Except Fault Webhook.Event :=
  let (cache, redeemed) := s.cache.redeem token now
  let s := { s with cache := cache }
  match redeemed with
  | .error fault => (s, .error fault)
  | .ok session =>
      let (s, id) := s.draw .event
      s.keep (do s.store.addEvent (← eventOf session id body headers now))

end Studio

end Showrunner

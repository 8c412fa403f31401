import Showrunner.Web.Target

/-!
# Routes

A route joins a method and a pattern of a path to an endpoint. Patterns are matched segment by
segment; one segment of a pattern may stand for any text that is not empty. The first route that
matches method and path answers. Where only paths match, the first of them says which method is
allowed; where none does, a path may still match without the slashes at its end.
-/

namespace Showrunner

namespace Web

/-- What can be asked of the service. -/
inductive Endpoint
  | health
  | catalog
  | compile
  | createWorkflow
  | listWorkflows
  | getWorkflow (id : Text)
  | updateWorkflow (id : Text)
  | getDefinition (id : Text)
  | arm
  | capture (token : Text)
  | listEvents (workflowId : Text)
  | createPlan
  | listPlans
  | getPlan (id : Text)
  | requeuePlan (id : Text)
  | dispatch
deriving DecidableEq, Repr

/-- A segment of a pattern. -/
inductive Segment
  | named (name : String)
  | any
deriving DecidableEq, Repr

/-- A route; its endpoint takes the text of the free segment. -/
structure Route where
  method : String
  pattern : List Segment
  endpoint : Text → Endpoint

namespace Route

/-- Match a named segment; the last one of a path may have a line end behind it. -/
def matchesName (name : String) (isLast : Bool) (segment : Text) : Bool :=
  segment == text name || (isLast && segment == text name ++ text "\n")

/-- Match segments and find the text of the free one, an empty text if none is free. -/
def parameter? : List Segment → List Text → Option Text
  | [], [] => some []
  | .named name :: pattern, segment :: rest =>
      if matchesName name rest.isEmpty segment then parameter? pattern rest else none
  | .any :: pattern, segment :: rest =>
      if segment.isEmpty then none else (parameter? pattern rest).map fun _ => segment
  | _, _ => none

/-- The segments of a path. -/
def segments? : Text → Option (List Text)
  | .scalar '/' :: rest => some (splitAll (.scalar '/') rest)
  | _ => none

/-- The endpoint that a route finds for a path. -/
def endpoint? (r : Route) (path : Text) : Option Endpoint := do
  pure (r.endpoint (← parameter? r.pattern (← segments? path)))

/-- The routes of the service. -/
def all : List Route :=
  let workflows := Segment.named "workflows"
  let plans := Segment.named "content-plans"
  [ ⟨"GET", [.named "health"], fun _ => .health⟩,
    ⟨"GET", [.named "node-catalog"], fun _ => .catalog⟩,
    ⟨"POST", [.named "compile"], fun _ => .compile⟩,
    ⟨"POST", [workflows], fun _ => .createWorkflow⟩,
    ⟨"GET", [workflows], fun _ => .listWorkflows⟩,
    ⟨"GET", [workflows, .any], .getWorkflow⟩,
    ⟨"PUT", [workflows, .any], .updateWorkflow⟩,
    ⟨"GET", [workflows, .any, .named "definition"], .getDefinition⟩,
    ⟨"POST", [.named "webhook-tests"], fun _ => .arm⟩,
    ⟨"POST", [.named "t", .any], .capture⟩,
    ⟨"GET", [workflows, .any, .named "captured-events"], .listEvents⟩,
    ⟨"POST", [plans], fun _ => .createPlan⟩,
    ⟨"GET", [plans], fun _ => .listPlans⟩,
    ⟨"GET", [plans, .any], .getPlan⟩,
    ⟨"POST", [plans, .any, .named "requeue"], .requeuePlan⟩,
    ⟨"POST", [.named "dispatch"], fun _ => .dispatch⟩ ]

end Route

/-- Where a request leads. -/
inductive Destination
  | endpoint (e : Endpoint)
  | otherMethod (allowed : String)
  | elsewhere (path : Text)
  | nowhere

/-- Find where a method and a path lead. -/
def destination (method path : Text) : Destination :=
  let found := Route.all.filterMap fun r => (r.endpoint? path).map fun e => (r.method, e)
  match found.find? fun (allowed, _) => text allowed = method with
  | some (_, e) => .endpoint e
  | none =>
      match found with
      | (allowed, _) :: _ => .otherMethod allowed
      | [] =>
          let bare := path.dropEndWhile (· == .scalar '/')
          if path ≠ bare ∧ Route.all.any fun r => (r.endpoint? bare).isSome then .elsewhere bare
          else .nowhere

end Web

end Showrunner

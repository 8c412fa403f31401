import Showrunner.Web.Message
import Showrunner.Web.Stage

/-!
# Answers about webhook tests

A request for an armed test is captured with its body and its headers, of a name that repeats the
first value. A token that is missing or expired is gone for the caller.
-/

namespace Showrunner

namespace Web

variable {σ : Type}

/-- What it means to a caller that a test cannot be armed. -/
def armProblem : Fault → Problem
  | .value message => .saying 400 message
  | fault => .fault fault

/-- What it means to a caller that a request is not captured. -/
def captureProblem : Fault → Problem
  | .tokenMissing => .saying 410 Fault.tokenMissing.message
  | .tokenExpired => .saying 410 Fault.tokenExpired.message
  | fault => .fault fault

/-- Say that a request was captured. -/
def captured (e : Webhook.Event) : Json :=
  .obj [(text "message", .str (text "Payload captured successfully")),
    (text "timestamp", .str e.capturedAt.toText)]

/-- The headers of a request as an event keeps them. -/
def Request.keptHeaders (r : Request) : Fields :=
  r.headers.firsts.map fun (name, v) => (name, .str v)

/-- Capture a request for a token. -/
def capture (token : Text) (r : Request) (now : Stamp) (s : Stage σ) : Answer σ Json :=
  (s.kept captureProblem (s.studio.capture token r.body r.keptHeaders now)).map captured

end Web

end Showrunner

import Showrunner.Json.Write
import Showrunner.Plan.Basic
import Showrunner.Render.Address
import Showrunner.Render.Reply

/-!
# The render service

A plan is rendered by a request to the render service, which is known by its address and a key.
Without an address no request is made. What comes of the request is taken for what comes of the plan.
-/

namespace Showrunner

namespace Render

/-- What the render service is told about a plan. -/
def order (p : Plan) : Json :=
  .obj [(text "planId", .str p.id), (text "influencerId", .str p.influencerId),
    (text "lookId", .str p.lookId), (text "prompt", .str p.prompt),
    (text "title", Json.ofText? p.title), (text "userId", .str p.userId)]

/-- How the render service is reached; the time to wait is a number of seconds. -/
structure Service where
  baseUrl : Text
  key : Text
  patience : Json

/-- A request to the render service. -/
structure Request where
  url : Text
  method : Text
  headers : List (Text × Text)
  body : Text
  patience : Json

namespace Service

/-- A service at an address; slashes at its end do not count. -/
def reachedAt (baseUrl key : Text) (patience : Json) : Service :=
  ⟨baseUrl.dropEndWhile (· == .scalar '/'), key, patience⟩

/-- Say that the service has no address. -/
def unconfigured : Fault := .unavailable (text "BACKEND_URL not configured")

/-- The request that renders a plan. -/
def request (s : Service) (p : Plan) : Except Fault Request :=
  if s.baseUrl.isEmpty then .error unconfigured
  else do
    let url ← Address.read (s.baseUrl ++ text "/generate-video")
    pure
      { url := url
        method := text "POST"
        headers :=
          [(text "content-type", text "application/json"),
            (text "authorization", text "Bearer " ++ s.key),
            (text "user-agent", text "ContentFlow-Dispatcher/0.1")]
        body := (order p).writeText
        patience := s.patience }

/-- Have a plan rendered, given what comes of each request. -/
def generate (s : Service) (send : Request → Reply) (p : Plan) : Except Fault Json := do
  let request ← s.request p
  (send request).result

end Service

end Render

end Showrunner

import Showrunner.Text.Digits
import Showrunner.Web.Message

/-!
# Requests from other origins

A browser says from which origin a request comes, and asks before it sends one that is not
simple. An origin is allowed if the settings list it or if it is a port of the local machine. A
preflight is answered without a look at the routes; every other request is answered as usual,
and its response says whether the origin may see it.
-/

namespace Showrunner

namespace Web

/-- The origins that the settings allow. -/
structure Origins where
  listed : List Text

namespace Origins

/-- The hosts of the local machine. -/
def localHosts : List Text := [text "127.0.0.1", text "localhost"]

/-- Decide whether an origin is a port of the local machine. -/
def isLocal (origin : Text) : Bool :=
  let behind := (Text.dropOpening? (text "http://") origin) <|> Text.dropOpening? (text "https://") origin
  localHosts.any fun host =>
    match behind.bind (Text.dropOpening? (host ++ text ":")) with
    | some port => !port.isEmpty && port.all fun p => Digits.isAscii p.toChar
    | none => false

/-- Decide whether an origin is allowed. A star in the list stands for every origin. -/
def allows (o : Origins) (origin : Text) : Bool :=
  o.listed.contains (text "*") || isLocal origin || o.listed.contains origin

/-- The methods that another origin may use. -/
def methods : List Text :=
  ["DELETE", "GET", "HEAD", "OPTIONS", "PATCH", "POST", "PUT", "QUERY"].map text

/-- The headers of every response to another origin. -/
def commonHeaders (o : Origins) (origin : Text) : Headers :=
  (text "access-control-allow-credentials", text "true") ::
    (if o.allows origin then [(text "access-control-allow-origin", origin)] else [])

/-- The headers of a preflight's response. -/
def preflightHeaders (o : Origins) (origin : Text) (requested : Option Text) : Headers :=
  [(text "access-control-allow-methods", Text.joined (text ", ") methods),
    (text "access-control-max-age", text "600")] ++
  (requested.toList.map fun names => (text "access-control-allow-headers", names)) ++
  o.commonHeaders origin

/-- Answer a preflight for a method. -/
def preflight (o : Origins) (origin method : Text) (requested : Option Text) : Response :=
  let troubles :=
    (if o.allows origin then [] else [text "origin"]) ++
      (if methods.contains method then [] else [text "method"])
  let headers := o.preflightHeaders origin requested
  if troubles.isEmpty then ⟨200, .plain (text "OK"), headers⟩
  else ⟨400, .plain (text "Disallowed CORS " ++ Text.joined (text ", ") troubles), headers⟩

/-- The response to a preflight, if a request is one. -/
def preflight? (o : Origins) (r : Request) : Option Response := do
  let origin ← r.headers.get? "origin"
  let method ← r.headers.get? "access-control-request-method"
  if r.method = text "OPTIONS" then
    some (o.preflight origin method (r.headers.get? "access-control-request-headers"))
  else none

/-- Say in a response whether the origin of its request may see it. -/
def mark (o : Origins) (r : Request) (response : Response) : Response :=
  match r.headers.get? "origin" with
  | some origin => response.withHeaders (o.commonHeaders origin)
  | none => response

end Origins

end Web

end Showrunner

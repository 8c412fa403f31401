import Showrunner.Fault
import Showrunner.Text.Case

/-!
# Requests and responses

A request names a method and a target, and carries headers and a body. Names of headers are in
lower case; a name may repeat, and then its first value counts. A response has a status and a
content, a document or a plain text.
-/

namespace Showrunner

namespace Web

/-- Headers in order. -/
abbrev Headers := List (Text × Text)

namespace Headers

/-- The first value of a name. -/
def get? (headers : Headers) (name : String) : Option Text := headers.lookup (text name)

/-- Keep the first value of each name. -/
def firsts (headers : Headers) : Headers :=
  headers.foldl (fun kept (name, v) => if (kept.lookup name).isSome then kept else kept ++ [(name, v)])
    []

/-- Add a header unless its name has a value. -/
def withDefault (name : String) (value : Text) (headers : Headers) : Headers :=
  if (headers.get? name).isSome then headers else (text name, value) :: headers

end Headers

/-- A request. -/
structure Request where
  method : Text
  target : Text
  headers : Headers
  body : List UInt8

namespace Request

/-- The host under which the service is reached. -/
def hostName : Text := text "testserver"

/-- The methods whose requests always tell the length of their body. -/
def tellsLength (method : Text) : Bool :=
  method == text "POST" || method == text "PUT" || method == text "PATCH"

/-- A request as it arrives: the method in upper case, the names of headers in lower case, with a
host and the length of the body. -/
def arriving (method target : Text) (headers : Headers) (body : List UInt8) : Request :=
  let method := method.upper
  let headers : Headers := headers.map fun (name, v) => (name.lower, v)
  let headers :=
    if tellsLength method || !body.isEmpty then
      headers.withDefault "content-length" (Text.ofNat body.length)
    else headers
  ⟨method, target, headers.withDefault "host" hostName, body⟩

end Request

/-- What a response holds. -/
inductive Content
  | document (v : Json)
  | plain (t : Text)

/-- A response. -/
structure Response where
  status : Nat
  content : Content
  headers : Headers

namespace Response

/-- A document can be sent if its numbers are finite and its texts have an encoding. -/
def isSendable (v : Json) : Bool := v.isFinite && v.strayHalf?.isNone

/-- The response to a request that the service could not work through. -/
def failure : Response := ⟨500, .plain (text "Internal Server Error"), []⟩

/-- A response with a document. -/
def ofDocument (status : Nat) (v : Json) (headers : Headers) : Response :=
  ⟨status, .document v, headers⟩

/-- A response that says in a few words what is wrong. -/
def ofDetail (status : Nat) (detail : Json) (headers : Headers) : Response :=
  ofDocument status (.obj [(text "detail", detail)]) headers

/-- Decide whether a response can be sent. -/
def canBeSent (r : Response) : Bool :=
  match r.content with
  | .document v => isSendable v
  | .plain _ => true

/-- A response with more headers. -/
def withHeaders (headers : Headers) (r : Response) : Response :=
  { r with headers := r.headers ++ headers }

/-- A response of which only the head is sent. -/
def headOnly (r : Response) : Response := { r with content := .plain [] }

end Response

end Web

end Showrunner

import Showrunner.Json.Octets
import Showrunner.Text.Blank
import Showrunner.Validation.Reader
import Showrunner.Web.Problem
import Showrunner.Web.Target

/-!
# Bodies and parameters

A body is read as a document if its type announces one; any other body is a text, which is no
record. An empty body is absent, whatever its type. Parameters of a query are texts.
-/

namespace Showrunner

namespace Web

variable {α : Type}

/-- Decide whether a type of content is a document: `application/json`, or a type of application
with a name that ends in `+json`. -/
def isDocumentType (given : Text) : Bool :=
  let kind := Text.lower (Text.trim (splitOnce (.scalar ';') given).1)
  match splitAll (.scalar '/') kind with
  | [family, name] =>
      family == text "application" && (name == text "json" || (text "+json").isSuffixOf name)
  | _ => false

/-- What a request brings. -/
inductive Body
  | absent
  | given (v : Json)

/-- The place of issues with a body. -/
def bodyStep : Step := .field (text "body")

/-- Report a malformed document. -/
def malformedBody (fault : Json.Malformed) (position : Nat) : Problem :=
  .invalid [⟨text "json_invalid", [bodyStep, .item position], text "JSON decode error", .obj [],
    [(text "error", .str (text fault.message))]⟩]

/-- Read a body of octets as a document. -/
def readDocument (octets : List UInt8) : Except Problem Body :=
  match Json.readOctets .outside octets with
  | .value v => .ok (.given v)
  | .malformed fault position => .error (malformedBody fault position)
  | .unreadable => .error (.saying 400 (text "There was an error parsing the body"))

/-- Read a body of octets as a text. -/
def readPlain (octets : List UInt8) : Except Problem Body :=
  match Utf8.decode octets with
  | .ok t => .ok (.given (.str t))
  | .error broken => .error (.fault (.decoding broken.message))

/-- Read the body of a request. -/
def Request.readBody (r : Request) : Except Problem Body :=
  if r.body.isEmpty then .ok .absent
  else if ((r.headers.get? "content-type").map isDocumentType).getD false then readDocument r.body
  else readPlain r.body

/-- Keep a valid value. -/
def accept (place : Step) (v : Verdict α) : Except Problem α :=
  match v.under place with
  | .valid a => .ok a
  | .invalid issues => .error (.invalid issues)

/-- Report an absent body. -/
def absentBody : Problem :=
  .invalid [⟨text "missing", [bodyStep], text "Field required", .null, []⟩]

/-- Read a value that a request has to bring. -/
def Request.required (r : Request) (read : Reader α) : Except Problem α := do
  match ← r.readBody with
  | .absent => .error absentBody
  | .given v => accept bodyStep (read v)

/-- Read a value that a request may bring. -/
def Request.optional (r : Request) (read : Reader α) : Except Problem (Option α) := do
  match ← r.readBody with
  | .absent => .ok none
  | .given v => accept bodyStep (Reader.nullable read v)

/-- Read a parameter of a query. -/
def Target.readParameter (t : Target) (name : String) (read : Reader α) :
    Except Problem (Option α) :=
  match t.parameter? name with
  | none => .ok none
  | some given =>
      match accept (.field (text "query")) ((read (.str given)).under (.field (text name))) with
      | .ok a => .ok (some a)
      | .error problem => .error problem

end Web

end Showrunner

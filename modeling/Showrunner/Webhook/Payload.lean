import Showrunner.Fault
import Showrunner.Json.Read
import Showrunner.Text.Utf8

/-!
# Captured payloads

A captured body is kept as the value it spells, and as its text where it spells none. An octet
that belongs to no character is kept as an escape. Only the two limits of the document reader, on
nesting and on the digits of an integer, make a body unreadable.
-/

namespace Showrunner

namespace Payload

/-- The text of a body. -/
def bodyText (octets : List UInt8) : Text := Utf8.decodeEscaping octets

/-- Read a document, or keep its text. -/
def ofText (t : Text) : Except Fault Json :=
  match Json.read .outside t with
  | .ok v => .ok v
  | .error (.malformed _ _) => .ok (.str t)
  | .error (.tooManyDigits count) => .error (.value (Integer.limitMessage count))
  | .error (.tooDeep container) => .error (.depth (Json.depthLimitMessage container))

/-- Read a captured body. -/
def read (octets : List UInt8) : Except Fault Json := ofText (bodyText octets)

end Payload

end Showrunner

import Showrunner.Fault
import Showrunner.Json.Read
import Showrunner.Text.Utf8

/-!
# Replies of the render service

A request is answered with a status and a body, is answered with a body that cannot be read, or is
not answered. Only an answer with a good status gives a result: the object that its body spells,
another value under a name of its own, or the text of a body that spells nothing.
-/

namespace Showrunner

namespace Render

/-- What comes of a request. -/
inductive Reply
  | answered (status : Int) (body : List UInt8)
  | cutOff (status : Int) (fault : Fault)
  | unanswered (fault : Fault)

namespace Reply

/-- Decide whether a status is good. -/
def isGood (status : Int) : Bool := 200 ≤ status && status < 300

/-- How much of the body of a refusal is kept. -/
def keptLength : Nat := 2000

/-- Recognise the troubles of a connection. -/
def isConnectionTrouble : Fault → Bool
  | .link _ | .timeout _ | .system _ _ | .reset _ | .disconnected _ => true
  | _ => false

/-- Report a connection trouble as a service out of reach. -/
def unreachable (fault : Fault) : Fault :=
  if isConnectionTrouble fault then .unavailable (text "Backend unreachable: " ++ fault.message)
  else fault

/-- The result that the text of a good answer spells. -/
def resultOf (t : Text) : Except Fault Json :=
  if t.isEmpty then .ok (.obj [])
  else
    match Json.read .outside t with
    | .ok (.obj fields) => .ok (.obj fields)
    | .ok v => .ok (.obj [(text "result", v)])
    | .error (.malformed _ _) => .ok (.obj [(text "raw", .str t)])
    | .error (.tooManyDigits count) => .error (.value (Integer.limitMessage count))
    | .error (.tooDeep container) => .error (.depth (Json.depthLimitMessage container))

/-- The result that a reply gives. -/
def result : Reply → Except Fault Json
  | .answered status body =>
      let t := Utf8.decodeReplacing body
      if isGood status then resultOf t else .error (.rejected status (t.take keptLength))
  | .cutOff status fault => .error (if isGood status then unreachable fault else fault)
  | .unanswered fault => .error (unreachable fault)

end Reply

end Render

end Showrunner

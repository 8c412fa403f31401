import Showrunner.Web.Message

/-!
# Problems with requests

A request has no answer of its own when it is invalid, when the service refuses it, or when
working through it ends with a fault. An invalid request is told every issue with its place; of a
fault nothing is told. When working through a request never ends, there is no response at all.
-/

namespace Showrunner

namespace Web

/-- Why a request has no answer of its own. -/
inductive Problem
  | invalid (issues : List Issue)
  | refused (status : Nat) (detail : Json)
  | fault (f : Fault)
  | endless

/-- Write a step to a part of a request. -/
def dumpStep : Step → Json
  | .field name => .str name
  | .item index => .int index

/-- Write an issue with a request. -/
def dumpIssue (issue : Issue) : Json :=
  .obj ([(text "type", .str issue.kind), (text "loc", .arr (issue.place.map dumpStep)),
      (text "msg", .str issue.message), (text "input", issue.given)] ++
    if issue.details.isEmpty then [] else [(text "ctx", .obj issue.details)])

namespace Problem

/-- Refuse a request in a few words. -/
def saying (status : Nat) (words : Text) : Problem := .refused status (.str words)

/-- The response to a request with a problem, if there is one. -/
def response : Problem → Option Response
  | .invalid issues => some (.ofDetail 422 (.arr (issues.map dumpIssue)) [])
  | .refused status detail => some (.ofDetail status detail [])
  | .fault _ => some .failure
  | .endless => none

end Problem

end Web

end Showrunner

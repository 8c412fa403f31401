import Showrunner.Text.Percent

/-!
# Targets of requests

What stands before the first question mark of a target is the path, what stands behind it the
query, up to a hash, behind which nothing is sent. A query is a list of named values between
ampersands, with a plus sign for a blank; of a name that repeats the last value counts.
-/

namespace Showrunner

namespace Web

/-- Split a text at the first occurrence of a code point, which goes to neither part. -/
def splitOnce (separator : CodePoint) (t : Text) : Text × Option Text :=
  let before := t.takeWhile (· != separator)
  match t.drop before.length with
  | [] => (before, none)
  | _ :: behind => (before, some behind)

/-- Split a text at every occurrence of a code point. -/
def splitAll (separator : CodePoint) : Text → List Text
  | [] => [[]]
  | p :: rest =>
      if p = separator then [] :: splitAll separator rest
      else
        match splitAll separator rest with
        | [] => [[p]]
        | part :: parts => (p :: part) :: parts

/-- The path and the query of a target. -/
structure Target where
  path : Text
  query : Text

namespace Target

/-- Read a target. -/
def read (t : Text) : Target :=
  let (path, query) := splitOnce (.scalar '?') (splitOnce (.scalar '#') t).1
  ⟨Percent.decode path, query.getD []⟩

/-- Read a name or a value of a query. -/
def queryText (t : Text) : Text :=
  Percent.decode (t.map fun p => if p = .scalar '+' then .scalar ' ' else p)

/-- The named values of a query. -/
def parameters (t : Target) : List (Text × Text) :=
  ((splitAll (.scalar '&') t.query).filter (!·.isEmpty)).map fun part =>
    let (name, value) := splitOnce (.scalar '=') part
    (queryText name, queryText (value.getD []))

/-- The last value of a name in a query. -/
def parameter? (t : Target) (name : String) : Option Text :=
  t.parameters.reverse.lookup (text name)

end Target

end Web

end Showrunner

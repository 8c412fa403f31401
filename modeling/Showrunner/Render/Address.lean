import Showrunner.Fault
import Showrunner.Text.Blank
import Showrunner.Text.Quoted

/-!
# Addresses of requests

An address may be wrapped in blanks, angle brackets and the mark `URL:`. What follows its last
hash is a fragment; an empty fragment is dropped. An address has to name a scheme in front of its
first colon.
-/

namespace Showrunner

namespace Address

/-- Take an address out of what it is wrapped in. -/
def unwrap (t : Text) : Text :=
  let t := t.trim
  let t :=
    if t.head? = some (.scalar '<') ∧ t.getLast? = some (.scalar '>') then
      Text.trim (t.tail.dropLast)
    else t
  match Text.dropOpening? (text "URL:") t with
  | some rest => rest.trim
  | none => t

/-- Split an address at its last hash. -/
def splitFragment (t : Text) : Text × Text :=
  let isHash : CodePoint → Bool := (· == .scalar '#')
  if t.any isHash then
    let fragment := (t.reverse.takeWhile (!isHash ·)).reverse
    (t.take (t.length - fragment.length - 1), fragment)
  else (t, [])

/-- Decide whether an address names a scheme. -/
def hasScheme (t : Text) : Bool :=
  let scheme := t.takeWhile fun p => p != .scalar '/' && p != .scalar ':'
  !scheme.isEmpty && (t.drop scheme.length).head? == some (.scalar ':')

/-- Say that an address names no scheme. -/
def unknownScheme (t : Text) : Fault := .value (text "unknown url type: " ++ t.quoted)

/-- Read the address of a request. -/
def read (t : Text) : Except Fault Text :=
  let (path, fragment) := splitFragment (unwrap t)
  let whole := if fragment.isEmpty then path else path ++ .scalar '#' :: fragment
  if hasScheme path then .ok whole else .error (unknownScheme whole)

end Address

end Showrunner

import Showrunner.Binary64.Shortest
import Showrunner.Text.Case
import Showrunner.Text.Integer
import Showrunner.Time.Write
import Showrunner.Yaml.Node

/-!
# Values of a YAML document

The value of a node is an atom, a list, or a mapping from atoms to values in which a later entry
replaces an earlier one with the same key. An entry with the merge mark brings in the entries of
the mappings that it names, in front of the others. Sets and lists of pairs are kept as values of
which nothing is known.
-/

namespace Showrunner

namespace Yaml

/-- A value without parts. -/
inductive Atom
  | null
  | bool (b : Bool)
  | int (n : Int)
  | float (x : Binary64)
  | moment (shown : Text)
  | octets
  | text (t : Text)
deriving DecidableEq, Repr

/-- A value. -/
inductive Value
  | atom (a : Atom)
  | list (items : List Value)
  | mapping (entries : List (Atom × Value))
  | unknown

namespace Atom

/-- The number of an atom; truth values count as numbers. -/
def number? : Atom → Option Binary64
  | .bool b => some (Binary64.ofInt (if b then 1 else 0))
  | .int n => some (Binary64.ofInt n)
  | .float x => some x
  | _ => none

/-- Decide whether two atoms are one key: numbers by their values, others by what they are. -/
def sameKey (a b : Atom) : Bool :=
  a == b ||
    match a, b with
    | .int m, .int n => m == n
    | a, b =>
        match a.number?, b.number? with
        | some x, some y => Binary64.compare? x y == some .eq
        | _, _ => false

/-- Show an atom as a name. -/
def shown : Atom → Text
  | .null => Showrunner.text "None"
  | .bool true => Showrunner.text "True"
  | .bool false => Showrunner.text "False"
  | .int n => Text.ofInt n
  | .float .nan => Showrunner.text "nan"
  | .float (.infinity false) => Showrunner.text "inf"
  | .float (.infinity true) => Showrunner.text "-inf"
  | .float x => Text.ofChars (Binary64.write x)
  | .moment t => t
  | .octets => []
  | .text t => t

/-- Say that a text is no integer in a base. -/
def noInteger (base : Nat) (t : List Char) : Fault :=
  .value (Showrunner.text "invalid literal for int() with base " ++ Text.ofNat base ++
    Showrunner.text ": " ++ (Text.ofChars t).quoted)

/-- The natural number of digits in a base. -/
def inBase (base : Nat) (cs : List Char) : Except Fault Int :=
  let digits := cs.filterMap fun c => (Digits.hex? c).bind fun d => if d < base then some d else none
  if cs.isEmpty || digits.length != cs.length then .error (noInteger base cs)
  else .ok (Digits.value base digits)

/-- The natural number of decimal digits. -/
def decimal (cs : List Char) : Except Fault Int :=
  match Integer.read cs with
  | .ok n => .ok n
  | .error .shape => .error (noInteger 10 cs)
  | .error (.tooLong digits) =>
      .error (.value (Integer.limitMessage digits))

/-- The number of digits in base sixty, the first place first. -/
def inSixties (places : List Int) : Int := places.foldl (fun n place => n * 60 + place) 0

/-- Drop the underscores of a number and split off its sign. -/
def signAndSize (t : Text) : Except Fault (Int × List Char) :=
  match t.toChars.filter (· != '_') with
  | [] => .error (.index (Showrunner.text "string index out of range"))
  | '-' :: rest => .ok (-1, rest)
  | '+' :: rest => .ok (1, rest)
  | cs => .ok (1, cs)

/-- The integer that a scalar spells. -/
def integer (t : Text) : Except Fault Atom := do
  let (sign, cs) ← signAndSize t
  let size ←
    match cs with
    | [] => .error (.index (Showrunner.text "string index out of range"))
    | ['0'] => .ok 0
    | '0' :: 'b' :: ds => inBase 2 ds
    | '0' :: 'x' :: ds => inBase 16 ds
    | '0' :: ds => inBase 8 ('0' :: ds)
    | cs => if cs.contains ':' then (Tag.parts cs).mapM decimal |>.map inSixties else decimal cs
  pure (.int (sign * size))

/-- Say that a text is no number. -/
def noNumber (t : List Char) : Fault :=
  .value (Showrunner.text "could not convert string to float: " ++ (Text.ofChars t).quoted)

/-- The size of a number that need not be whole. -/
def sizeOf (cs : List Char) : Except Fault Binary64 :=
  match Integer.number? cs with
  | some x => .ok x
  | none => .error (noNumber cs)

/-- Give a number a sign. -/
def withSign (sign : Int) : Binary64 → Binary64
  | .nan => .nan
  | .infinity negative => .infinity (negative != (sign < 0))
  | .finite negative m e => .finite (negative != (sign < 0)) m e

/-- The number of digits in base sixty behind whose last place there is a fraction. -/
def fractionInSixties (parts : List Binary64) : Binary64 :=
  let (num, den) := parts.foldl
    (fun (sum : Nat × Nat) x =>
      let (n, d) := x.fraction
      let place := x.truncated.natAbs * d + n
      (sum.1 * 60 * d + place * sum.2, sum.2 * d)) (0, 1)
  Binary64.nearest false num den

/-- The number that a scalar spells. -/
def real (t : Text) : Except Fault Atom := do
  let lowered := Text.ofChars (t.toChars.map Char.toLower)
  let (sign, cs) ← signAndSize lowered
  if cs = ".inf".toList then pure (.float (.infinity (sign < 0)))
  else if cs = ".nan".toList then pure (.float .nan)
  else if cs.contains ':' then
    let parts ← (Tag.parts cs).mapM sizeOf
    pure (.float (withSign sign (fractionInSixties parts)))
  else pure (.float (withSign sign (← sizeOf cs)))

/-- The words for truth. -/
def truth : List (String × Bool) :=
  [("yes", true), ("no", false), ("true", true), ("false", false), ("on", true), ("off", false)]

/-- The truth value that a scalar spells. -/
def bool? (t : Text) : Except Fault Atom :=
  let lowered := Text.lower t
  match truth.find? fun (w, _) => Showrunner.text w = lowered with
  | some (_, b) => .ok (.bool b)
  | none => .error (.key lowered.quoted)

open Calendar in
/-- The date, perhaps with a time, that a scalar spells. -/
def moment? (t : Text) : Except Fault Atom := do
  match Tag.moment? t.toChars with
  | none => .error (.attribute (Showrunner.text "'NoneType' object has no attribute 'groupdict'"))
  | some m =>
      let date : Except Fault Date :=
        (Date.of m.year m.month m.day).mapError fun f => .value (Showrunner.text f.message)
      match m.time with
      | none => do pure (.moment (Stamp.dateText 4 (← date)))
      | some (hour, minute, second, fraction) =>
          let micros := Digits.natOf ((fraction ++ List.replicate 6 '0').take 6)
          let offset : Option Int := m.zone.map fun (negative, hours, minutes) =>
            let size : Int := ((hours * 60 + minutes) * 60 * microsPerSecond : Nat)
            if negative then -size else size
          match offset with
          | some o => if (microsPerDay : Int) ≤ o.natAbs then .error (Stamp.wideOffset o)
          | none => pure ()
          let date ← date
          let clock ← (Clock.of hour minute second micros).mapError fun f =>
            Fault.value (Showrunner.text f.message)
          pure (.moment (Stamp.dateText 4 date ++ Showrunner.text " " ++ Stamp.clockText clock ++
            Stamp.fractionText micros ++ (offset.map Stamp.offsetText).getD []))

end Atom

namespace Value

/-- Give a key a value: in its place if it has one, at the end otherwise. -/
def put (key : Atom) (value : Value) : List (Atom × Value) → List (Atom × Value)
  | [] => [(key, value)]
  | (other, old) :: rest =>
      if other.sameKey key then (other, value) :: rest else (other, old) :: put key value rest

/-- The atom that a scalar spells. -/
def atomOf (tag : Tag) (t : Text) : Except Refusal Atom :=
  let keep (found : Except Fault Atom) : Except Refusal Atom := found.mapError .unfit
  match tag with
  | .null => .ok .null
  | .bool => keep (Atom.bool? t)
  | .int => keep (Atom.integer t)
  | .float => keep (Atom.real t)
  | .moment => keep (Atom.moment? t)
  | .octets => .ok .octets
  | .text => .ok (.text t)
  | _ => .error .malformed

/-- The entries that a merge brings in. -/
def mergedEntries : Node → Except Refusal (List (Node × Node))
  | .mapping _ entries => .ok entries
  | .sequence _ items => do
      let found ← items.mapM fun item =>
        match item with
        | .mapping _ entries => Except.ok entries
        | _ => .error .malformed
      pure found.reverse.flatten
  | _ => .error .malformed

/-- Bring in merged entries in front of the others. A key that is the mark of a default is text. -/
def mergeEntries (entries : List (Node × Node)) : Except Refusal (List (Node × Node)) := do
  let isMerge : Node → Bool := fun
    | .scalar .merge _ => true
    | _ => false
  let plainKey : Node → Node := fun
    | .scalar .standard t => .scalar .text t
    | key => key
  let merged ← (entries.filter fun (key, _) => isMerge key).mapM fun (_, value) => mergedEntries value
  pure (merged.flatten ++
    (entries.filter fun (key, _) => !isMerge key).map fun (key, value) => (plainKey key, value))

mutual

/-- Bring in the merged entries everywhere in a node. -/
def settle : Node → Except Refusal Node
  | .scalar tag t => .ok (.scalar tag t)
  | .sequence tag items => do pure (.sequence tag (← settleItems items))
  | .mapping tag entries => do pure (.mapping tag (← mergeEntries (← settleEntries entries)))
  | .loop => .ok .loop

/-- Bring in the merged entries everywhere in a list of nodes. -/
def settleItems : List Node → Except Refusal (List Node)
  | [] => .ok []
  | n :: rest => do
      let n ← settle n
      pure (n :: (← settleItems rest))

/-- Bring in the merged entries everywhere in a list of entries. -/
def settleEntries : List (Node × Node) → Except Refusal (List (Node × Node))
  | [] => .ok []
  | (key, value) :: rest => do
      let key ← settle key
      let value ← settle value
      pure ((key, value) :: (← settleEntries rest))

end

/-- The atom of a key. -/
def keyOf : Node → Except Refusal Atom
  | .scalar tag t => atomOf tag t
  | _ => .error .malformed

mutual

/-- The value of a node. -/
def ofNode : Node → Except Refusal Value
  | .scalar tag t => (atomOf tag t).map .atom
  | .sequence tag items => do
      let items ← ofItems items
      match tag with
      | .sequence => pure (.list items)
      | .pairs | .ordered => pure .unknown
      | _ => .error .malformed
  | .mapping tag entries => do
      let entries ← ofEntries entries
      match tag with
      | .mapping => pure (.mapping (entries.foldl (fun known (key, value) => put key value known) []))
      | .set => pure .unknown
      | _ => .error .malformed
  | .loop => .ok .unknown

/-- The values of a list of nodes. -/
def ofItems : List Node → Except Refusal (List Value)
  | [] => .ok []
  | n :: rest => do
      let v ← ofNode n
      pure (v :: (← ofItems rest))

/-- The keys and values of a list of entries. -/
def ofEntries : List (Node × Node) → Except Refusal (List (Atom × Value))
  | [] => .ok []
  | (key, value) :: rest => do
      let key ← keyOf key
      let value ← ofNode value
      pure ((key, value) :: (← ofEntries rest))

end

/-- Read a document of one value; a document without a node is null. -/
def read (cs : List Char) : Except Refusal Value := do
  match ← Node.ofTokens (← tokensOf cs) with
  | none => pure (.atom .null)
  | some node => ofNode (← settle node)

/-- Find the value of a key that is a text. -/
def field? (v : Value) (name : Text) : Option Value :=
  match v with
  | .mapping entries => entries.lookup (.text name)
  | _ => none

/-- The text of a value. -/
def text? : Value → Option Text
  | .atom (.text t) => some t
  | _ => none

end Value

end Yaml

end Showrunner

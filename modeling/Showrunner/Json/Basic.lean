import Showrunner.Binary64.Basic
import Showrunner.Text.Basic

/-!
# Interchange values

A value is what a document of the JSON format spells. An integer numeral and a numeral with a
fraction or an exponent spell different values. The fields of an object keep their order, each
name occurring once.
-/

namespace Showrunner

/-- A value of the interchange format. -/
inductive Json
  | null
  | bool (b : Bool)
  | int (n : Int)
  | float (x : Binary64)
  | str (t : Text)
  | arr (items : List Json)
  | obj (fields : List (Text × Json))
deriving Inhabited, Repr

/-- Named values in order. -/
abbrev Fields := List (Text × Json)

namespace Fields

/-- Find the value of a name. -/
def get? (fields : Fields) (name : Text) : Option Json := fields.lookup name

/-- Give a name a value: in its place if it has one, at the end otherwise. -/
def put (name : Text) (value : Json) : Fields → Fields
  | [] => [(name, value)]
  | (other, old) :: rest =>
      if other = name then (name, value) :: rest else (other, old) :: put name value rest

/-- Remove a name. -/
def without (name : Text) (fields : Fields) : Fields := fields.filter (·.1 != name)

/-- Decide whether a name has a value. -/
def has (fields : Fields) (name : Text) : Bool := (get? fields name).isSome

end Fields

namespace Json

/-- Find a field of an object. -/
def field? (v : Json) (name : Text) : Option Json :=
  match v with
  | .obj fields => Fields.get? fields name
  | _ => none

/-- The text of a string value. -/
def str? : Json → Option Text
  | .str t => some t
  | _ => none

/-- Write a text, or null where there is none. -/
def ofText? : Option Text → Json
  | some t => .str t
  | none => .null

mutual

/-- Replace every number that is not finite by null. -/
def finiteOnly : Json → Json
  | .float x => if x.isFinite then .float x else .null
  | .arr items => .arr (finiteItems items)
  | .obj fields => .obj (finiteFields fields)
  | v => v

/-- Replace numbers that are not finite in a list of values. -/
def finiteItems : List Json → List Json
  | [] => []
  | v :: rest => finiteOnly v :: finiteItems rest

/-- Replace numbers that are not finite in a list of fields. -/
def finiteFields : List (Text × Json) → List (Text × Json)
  | [] => []
  | (name, v) :: rest => (name, finiteOnly v) :: finiteFields rest

end

mutual

/-- Decide whether every number of a value is finite. -/
def isFinite : Json → Bool
  | .float x => x.isFinite
  | .arr items => itemsFinite items
  | .obj fields => fieldsFinite fields
  | _ => true

/-- Decide whether every number of a list of values is finite. -/
def itemsFinite : List Json → Bool
  | [] => true
  | v :: rest => isFinite v && itemsFinite rest

/-- Decide whether every number of a list of fields is finite. -/
def fieldsFinite : List (Text × Json) → Bool
  | [] => true
  | (_, v) :: rest => isFinite v && fieldsFinite rest

end

mutual

/-- List the texts of a value, names of fields included, in the order of writing. -/
def texts : Json → List Text
  | .str t => [t]
  | .arr items => itemTexts items
  | .obj fields => fieldTexts fields
  | _ => []

/-- List the texts of a list of values. -/
def itemTexts : List Json → List Text
  | [] => []
  | v :: rest => texts v ++ itemTexts rest

/-- List the texts of a list of fields. -/
def fieldTexts : List (Text × Json) → List Text
  | [] => []
  | (name, v) :: rest => name :: texts v ++ fieldTexts rest

end

/-- The first text of a value in which half of a pair stands alone. -/
def strayHalf? (v : Json) : Option Text := v.texts.find? (!·.isScalar)

end Json

end Showrunner

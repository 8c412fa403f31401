import Showrunner.Validation.Instant
import Showrunner.Validation.Numeral
import Showrunner.Validation.Verdict

/-!
# Readers of authored values

A reader turns an interchange value into a value of the library or reports every issue. Readers
are lenient where authors are: a number may be given as text, a truth value as a number. Readers
of records take the fields that they declare, each under any of its names, and leave the others
alone. A record that arrives in a request is reported in other words than one that does not.
-/

namespace Showrunner

/-- A reader of values. -/
abbrev Reader (α : Type) := Json → Verdict α

/-- Where a record comes from. -/
inductive Origin
  | value
  | request
deriving DecidableEq, Repr

namespace Reader

variable {α β : Type}

/-- Report one issue with a value. -/
def refuse (kind message : String) (given : Json) (details : Fields) : Verdict α :=
  .invalid [⟨text kind, [], text message, given, details⟩]

/-- Accept any value. -/
def any : Reader Json := .valid

/-- Report a text that holds half of a pair where its characters matter. -/
def unreadableText (given : Json) : Verdict α :=
  refuse "string_unicode" "Input should be a valid string, unable to parse raw data as a unicode string"
    given []

/-- Read a text. -/
def string : Reader Text
  | .str t => .valid t
  | v => refuse "string_type" "Input should be a valid string" v []

/-- Read a text that is not empty. -/
def filled : Reader Text
  | v@(.str t) =>
      if !t.isScalar then unreadableText v
      else if t.isEmpty then
        refuse "string_too_short" "String should have at least 1 character" v
          [(text "min_length", .int 1)]
      else .valid t
  | v => string v

/-- Read a value that may be null. -/
def nullable (r : Reader α) : Reader (Option α)
  | .null => .valid none
  | v => (r v).map some

/-- Read a list. -/
def list (r : Reader α) : Reader (List α)
  | .arr items =>
      Verdict.all (items.zipIdx.map fun (v, i) => (r v).under (.item i))
  | v => refuse "list_type" "Input should be a valid list" v []

/-- Read the fields of an object as values of one kind. -/
def mapping (r : Reader α) : Reader (List (Text × α))
  | .obj fields =>
      Verdict.all (fields.map fun (name, v) => ((r v).under (.field name)).map (name, ·))
  | v => refuse "dict_type" "Input should be a valid dictionary" v []

/-- Report a number that is no integer. -/
def noInteger (given : Json) : Verdict Int :=
  refuse "int_parsing" "Input should be a valid integer, unable to parse string as an integer" given []

/-- Report an integer that is too long. -/
def longInteger (given : Json) : Verdict Int :=
  refuse "int_parsing_size" "Unable to parse input string as an integer, exceeded maximum size"
    given []

/-- Read an integer. -/
def integer : Reader Int
  | .int n => .valid n
  | .bool b => .valid (if b then 1 else 0)
  | v@(.float x) =>
      if !x.isFinite then refuse "finite_number" "Input should be a finite number" v []
      else if !x.isWhole then
        refuse "int_from_float"
          "Input should be a valid integer, got a number with a fractional part" v []
      else if x.truncated.natAbs < Nat.pow 2 63 then .valid x.truncated
      else longInteger v
  | v@(.str t) =>
      if !t.isScalar then unreadableText v
      else
        match Numeral.whole (Text.toChars t) with
        | .integer n => .valid n
        | .tooLong => longInteger v
        | .none => noInteger v
  | v => refuse "int_type" "Input should be a valid integer" v []

/-- Report a value that is no number. -/
def noNumber (given : Json) : Verdict Binary64 :=
  refuse "float_type" "Input should be a valid number" given []

/-- Read a number. -/
def number : Reader Binary64
  | .float x => .valid x
  | .bool b => .valid (Binary64.ofInt (if b then 1 else 0))
  | v@(.int n) =>
      let x := Binary64.ofInt n
      if x.isFinite then .valid x else noNumber v
  | v@(.str t) =>
      if !t.isScalar then unreadableText v
      else
        match Numeral.number? (Text.toChars t) with
        | some x => .valid x
        | none =>
            refuse "float_parsing"
              "Input should be a valid number, unable to parse string as a number" v []
  | v => noNumber v

/-- Keep a value that passes a test. -/
def checked (r : Reader α) (test : α → Bool) (kind message : String) (details : Fields) : Reader α :=
  fun v =>
    (r v).andThen fun a => if test a then .valid a else refuse kind message v details

/-- Read an integer that is at least a bound. -/
def integerAtLeast (bound : Int) : Reader Int :=
  checked integer (bound ≤ ·) "greater_than_equal"
    ("Input should be greater than or equal to " ++ toString bound) [(text "ge", .int bound)]

/-- Read an integer that is at most a bound as well. -/
def integerBetween (low high : Int) : Reader Int := fun v =>
  (integer v).andThen fun n =>
    if high < n then
      refuse "less_than_equal" ("Input should be less than or equal to " ++ toString high) v
        [(text "le", .int high)]
    else if n < low then
      refuse "greater_than_equal" ("Input should be greater than or equal to " ++ toString low) v
        [(text "ge", .int low)]
    else .valid n

/-- Keep numbers that are at least zero. -/
def notNegative (r : Reader Binary64) : Reader Binary64 :=
  checked r (Binary64.atMost .zero) "greater_than_equal"
    "Input should be greater than or equal to 0" [(text "ge", .float .zero)]

/-- Keep numbers that are at most two. -/
def atMostTwo (r : Reader Binary64) : Reader Binary64 :=
  checked r (Binary64.atMost · (Binary64.ofInt 2)) "less_than_equal"
    "Input should be less than or equal to 2" [(text "le", .float (Binary64.ofInt 2))]

/-- Keep numbers above zero. -/
def positive (r : Reader Binary64) : Reader Binary64 :=
  checked r (Binary64.below .zero) "greater_than"
    "Input should be greater than 0" [(text "gt", .float .zero)]

/-- List names in quotes, the last after an `or`. -/
def alternatives (names : List String) : String :=
  let quoted := names.map fun n => "'" ++ n ++ "'"
  match quoted.reverse with
  | [] => ""
  | [only] => only
  | last :: before => String.intercalate ", " before.reverse ++ " or " ++ last

/-- Read one of several names as the value that it stands for. -/
def choice (kind : String) (options : List (String × α)) : Reader α := fun v =>
  let found : Option α :=
    match v with
    | .str t => (options.find? fun option => text option.1 = t).map (·.2)
    | _ => none
  match found with
  | some a => .valid a
  | none =>
      let expected := alternatives (options.map (·.1))
      refuse kind ("Input should be " ++ expected) v [(text "expected", .str (text expected))]

/-- Report a value that is no point in time. -/
def noInstant (given : Json) : Verdict Stamp :=
  refuse "datetime_type" "Input should be a valid datetime" given []

/-- Report a trouble with a point in time. -/
def troubledInstant (asDate : Bool) (trouble : Instant.Trouble) (given : Json) : Verdict Stamp :=
  let details : Fields := [(text "error", .str (text trouble.message))]
  if asDate then
    refuse "datetime_from_date_parsing"
      ("Input should be a valid datetime or date, " ++ trouble.message) given details
  else
    refuse "datetime_parsing" ("Input should be a valid datetime, " ++ trouble.message) given details

/-- Read a point in time. -/
def instant : Reader Stamp
  | v@(.int n) =>
      match Instant.ofInteger n with
      | .ok stamp => .valid stamp
      | .error trouble => troubledInstant false trouble v
  | v@(.float x) =>
      match Instant.ofNumber x with
      | .ok stamp => .valid stamp
      | .error trouble => troubledInstant false trouble v
  | v@(.str t) =>
      if !t.isScalar then unreadableText v
      else
        match Instant.ofText t with
        | .ok stamp => .valid stamp
        | .error rejection => troubledInstant rejection.asDate rejection.trouble v
  | v => noInstant v

/-- Find the first name under which a value is given. -/
def given? (names : List String) (fields : Fields) : Option (Text × Json) :=
  names.findSome? fun name => (Fields.get? fields (text name)).map (text name, ·)

/-- Report a field that is not given. -/
def missing (name : String) (given : Json) : Verdict α :=
  .invalid [⟨text "missing", [.field (text name)], text "Field required", given, []⟩]

/-- Read a field that has to be given. -/
def required (name : String) (r : Reader α) (fields : Fields) : Verdict α :=
  match given? [name] fields with
  | some (found, v) => (r v).under (.field found)
  | none => missing name (.obj fields)

/-- Read a field that may be left out, under the first of its names that is given. -/
def optional (names : List String) (absent : α) (r : Reader α) (fields : Fields) : Verdict α :=
  match given? names fields with
  | some (found, v) => (r v).under (.field found)
  | none => .valid absent

/-- Report a value that is no record of a kind. -/
def noRecord (origin : Origin) (name : String) (given : Json) : Verdict α :=
  match origin with
  | .value =>
      refuse "model_type" ("Input should be a valid dictionary or instance of " ++ name) given
        [(text "class_name", .str (text name))]
  | .request =>
      refuse "model_attributes_type"
        "Input should be a valid dictionary or object to extract fields from" given []

/-- Read a record from its fields. -/
def record (origin : Origin) (name : String) (r : Fields → Verdict α) : Reader α
  | .obj fields => r fields
  | v => noRecord origin name v

end Reader

end Showrunner

import Showrunner.Settings.Reference
import Showrunner.Text.Integer
import Showrunner.Text.Utf8
import Showrunner.Yaml.Value

/-!
# Settings of the service

The settings are read from a document, with a value of its own for each setting that the document
leaves out. What is said about the kinds of nodes comes from a YAML document; one that is malformed
says nothing.
-/

namespace Showrunner

/-- The settings of a service. -/
structure Settings where
  document : Settings.Document
  descriptions : List (Text × Text)

namespace Settings

/-- Where the store is and how long it waits for others, in seconds. -/
structure StoreSettings where
  path : Text
  patience : Binary64

/-- Where the render service is, its key, and how long to wait for it, in seconds. -/
structure RenderSettings where
  url : Text
  key : Text
  patience : Binary64

/-- How plans are dispatched. -/
structure DispatchSettings where
  batchLimit : Int
  staleMinutes : Int
  workers : Int
  interval : Int

/-- How webhook tests are armed: the address, and two durations in seconds. -/
structure TestSettings where
  baseUrl : Text
  lifetime : Int
  sweepInterval : Int

/-- A document with the name under which its troubles are reported. -/
structure Source where
  file : Text
  content : Text

/-! ## Reading -/

/-- What a YAML document says about the kinds of nodes. -/
def descriptionsOf (v : Yaml.Value) : List (Text × Text) :=
  match v.field? (text "kinds") with
  | some (.mapping kinds) =>
      kinds.foldl (fun found (kind, item) =>
        match (item.field? (text "description")).bind Yaml.Value.text? <|> item.text? with
        | some t => Document.update kind.shown (fun _ => t) found
        | none => found) []
  | _ => []

/-- Read what is said about the kinds of nodes. -/
def readDescriptions (octets : List UInt8) : Except Fault (List (Text × Text)) :=
  match Utf8.decode octets with
  | .error broken => .error (.decoding broken.message)
  | .ok content =>
      match Yaml.Value.read (Document.plainLines content).toChars with
      | .ok v => .ok (descriptionsOf v)
      | .error .malformed => .ok []
      | .error (.unfit fault) => .error fault

/-- Read a document from a source, if there is one. -/
def readSource (d : Document) : Option Source → Except Fault Document
  | none => .ok d
  | some source => (d.read source.file source.content).mapError .settings

/-- Read settings. The source next to the service counts only where the given one has no group. -/
def load (given nearby : Option Source) (kinds : Option (List UInt8)) : Except Fault Settings := do
  let d ← readSource Document.empty given
  let d ← if d.hasGroups then pure d else readSource d nearby
  let descriptions ←
    match kinds with
    | none => pure []
    | some octets => readDescriptions octets
  pure ⟨d, descriptions⟩

/-! ## Settings by name -/

/-- The written value of a setting. -/
def get? (s : Settings) (group option : String) : Except Fault (Option Text) :=
  (s.document.value? (text group) (text option)).mapError .settings

/-- A setting that is a text. -/
def textOf (s : Settings) (group option standard : String) : Except Fault Text := do
  pure ((← s.get? group option).getD (text standard))

/-- Say that a text is no integer. -/
def noInteger (t : Text) : Fault :=
  .value (text "invalid literal for int() with base 10: " ++ t.quoted)

/-- Read an integer. -/
def readInteger (t : Text) : Except Fault Int :=
  match Integer.read t.toChars with
  | .ok n => .ok n
  | .error .shape => .error (noInteger t)
  | .error (.tooLong digits) =>
      .error (.value (Integer.limitMessage digits))

/-- A setting that is an integer. -/
def integerOf (s : Settings) (group option : String) (standard : Int) : Except Fault Int := do
  match ← s.get? group option with
  | none => pure standard
  | some t => readInteger t

/-- A setting that is a number. -/
def numberOf (s : Settings) (group option : String) (standard : Int) : Except Fault Binary64 := do
  match ← s.get? group option with
  | none => pure (Binary64.ofInt standard)
  | some t =>
      match Integer.number? t.toChars with
      | some x => pure x
      | none => .error (.value (text "could not convert string to float: " ++ t.quoted))

/-- Split a text at commas. -/
def items : Text → List Text
  | [] => [[]]
  | .scalar ',' :: rest => [] :: items rest
  | p :: rest =>
      match items rest with
      | [] => [[p]]
      | item :: more => (p :: item) :: more

/-- The settings of the store. -/
def store (s : Settings) : Except Fault StoreSettings := do
  pure ⟨← s.textOf "store" "path" "data/contentflow.db", ← s.numberOf "store" "busy_timeout" 30⟩

/-- The settings of the render service. -/
def render (s : Settings) : Except Fault RenderSettings := do
  pure ⟨← s.textOf "backend" "url" "", ← s.textOf "backend" "api_key" "",
    ← s.numberOf "backend" "timeout_seconds" 30⟩

/-- The settings of the dispatch. -/
def dispatch (s : Settings) : Except Fault DispatchSettings := do
  pure ⟨← s.integerOf "dispatch" "batch_limit" 20, ← s.integerOf "dispatch" "stale_after_minutes" 30,
    ← s.integerOf "dispatch" "max_workers" 1, ← s.integerOf "dispatch" "interval_seconds" 0⟩

/-- The settings of webhook tests. -/
def tests (s : Settings) : Except Fault TestSettings := do
  pure ⟨← s.textOf "webhook_test" "base_url" "http://127.0.0.1:8000",
    ← s.integerOf "webhook_test" "ttl_seconds" 300,
    ← s.integerOf "webhook_test" "sweep_interval_seconds" 60⟩

/-- The origins that are allowed to call the service unless others are named. -/
def standardOrigins : List Text := [text "http://127.0.0.1:5173", text "http://localhost:5173"]

/-- The origins that are allowed to call the service. -/
def origins (s : Settings) : Except Fault (List Text) := do
  let written ← s.textOf "api" "cors_origins" ""
  if written.isEmpty then pure standardOrigins
  else pure (((items written).map Text.trim).filter (!·.isEmpty))

/-- The level of the log. -/
def logLevel (s : Settings) : Except Fault Text := do
  pure (← s.textOf "logging" "level" "INFO").upper

end Settings

end Showrunner

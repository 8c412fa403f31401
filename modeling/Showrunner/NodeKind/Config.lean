import Showrunner.Validation.Reader

/-!
# Configurations of node kinds

Most kinds of nodes have a typed configuration. An editor keeps keys of its own in the same
object, so keys that a configuration does not declare are left alone.
-/

namespace Showrunner

namespace NodeKind

open Reader

/-- What starts a workflow. -/
structure TriggerConfig where
  subtype : Option Text
  path : Option Text
  cron : Option Text

/-- What a filter tests and where its two branches lead. -/
structure FilterConfig where
  expression : Option Text
  nextTrue : Option Text
  nextFalse : Option Text

/-- A case of a switch. -/
structure SwitchCase where
  value : Json
  next : Option Text

/-- What a switch compares and its cases. -/
structure SwitchConfig where
  expression : Option Text
  cases : List SwitchCase

/-- What a loop runs over. -/
structure LoopConfig where
  items : Option Text
  maxIterations : Option Int

/-- How long a delay lasts. -/
structure DelayConfig where
  seconds : Option Binary64
  moment : Option Stamp

/-- The request that a node sends. -/
structure HttpRequestConfig where
  url : Option Text
  method : Text
  headers : List (Text × Text)
  body : Json
  timeout : Option Binary64

/-- The prompt that a node sends to a model. -/
structure GenAiConfig where
  model : Option Text
  prompt : Option Text
  temperature : Option Binary64

/-- What a run returns. -/
structure ReturnConfig where
  value : Json

/-- A text that may be null or left out. -/
def optionalText (names : List String) : Fields → Verdict (Option Text) :=
  optional names none (nullable string)

/-- Read the configuration of a trigger. -/
def TriggerConfig.read : Reader TriggerConfig :=
  record .value "TriggerConfig" fun fields =>
    TriggerConfig.mk <$> optionalText ["subtype"] fields <*> optionalText ["path"] fields
      <*> optionalText ["cron"] fields

/-- Read the configuration of a filter. -/
def FilterConfig.read : Reader FilterConfig :=
  record .value "FilterConfig" fun fields =>
    FilterConfig.mk <$> optionalText ["expression"] fields
      <*> optionalText ["nextTrue", "next_true"] fields
      <*> optionalText ["nextFalse", "next_false"] fields

/-- Read a case of a switch. -/
def SwitchCase.read : Reader SwitchCase :=
  record .value "SwitchCase" fun fields =>
    SwitchCase.mk <$> optional ["value"] .null any fields <*> optionalText ["next"] fields

/-- Read the configuration of a switch. -/
def SwitchConfig.read : Reader SwitchConfig :=
  record .value "SwitchConfig" fun fields =>
    SwitchConfig.mk <$> optionalText ["expression"] fields
      <*> optional ["cases"] [] (list SwitchCase.read) fields

/-- Read the configuration of a loop. -/
def LoopConfig.read : Reader LoopConfig :=
  record .value "LoopConfig" fun fields =>
    LoopConfig.mk <$> optionalText ["items"] fields
      <*> optional ["maxIterations", "max_iterations"] none (nullable (integerAtLeast 1)) fields

/-- Read the configuration of a delay. -/
def DelayConfig.read : Reader DelayConfig :=
  record .value "DelayConfig" fun fields =>
    DelayConfig.mk <$> optional ["seconds"] none (nullable (notNegative number)) fields
      <*> optional ["until"] none (nullable instant) fields

/-- The methods of a request. -/
def methods : List String := ["GET", "POST", "PUT", "PATCH", "DELETE", "HEAD"]

/-- Read the configuration of a request. -/
def HttpRequestConfig.read : Reader HttpRequestConfig :=
  record .value "HttpRequestConfig" fun fields =>
    HttpRequestConfig.mk <$> optionalText ["url"] fields
      <*> optional ["method"] (text "GET")
        (choice "literal_error" (methods.map fun m => (m, text m))) fields
      <*> optional ["headers"] [] (mapping string) fields
      <*> optional ["body"] .null any fields
      <*> optional ["timeout"] none (nullable (positive number)) fields

/-- Read the configuration of a prompt. -/
def GenAiConfig.read : Reader GenAiConfig :=
  record .value "GenAiConfig" fun fields =>
    GenAiConfig.mk <$> optionalText ["model"] fields <*> optionalText ["prompt"] fields
      <*> optional ["temperature"] none (nullable (notNegative (atMostTwo number))) fields

/-- Read the configuration of a return. -/
def ReturnConfig.read : Reader ReturnConfig :=
  record .value "ReturnConfig" fun fields =>
    ReturnConfig.mk <$> optional ["value"] .null any fields

/-- The shape of a configuration. -/
inductive Shape
  | trigger
  | filter
  | switch
  | loop
  | delay
  | httpRequest
  | genAi
  | return
deriving DecidableEq, Repr

/-- The issues of a configuration of some shape. -/
def Shape.issues : Shape → Json → List Issue
  | .trigger, cfg => (TriggerConfig.read cfg).issues
  | .filter, cfg => (FilterConfig.read cfg).issues
  | .switch, cfg => (SwitchConfig.read cfg).issues
  | .loop, cfg => (LoopConfig.read cfg).issues
  | .delay, cfg => (DelayConfig.read cfg).issues
  | .httpRequest, cfg => (HttpRequestConfig.read cfg).issues
  | .genAi, cfg => (GenAiConfig.read cfg).issues
  | .return, cfg => (ReturnConfig.read cfg).issues

end NodeKind

end Showrunner

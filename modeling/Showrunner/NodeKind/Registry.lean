import Showrunner.NodeKind.Config

/-!
# The registry of node kinds

A registry knows kinds of nodes by name. A kind that is not registered, or has no shape, carries
configuration that nobody checks. Kinds are listed in the order of their names.
-/

namespace Showrunner

namespace NodeKind

/-- What a registry knows of a kind. -/
structure Spec where
  kind : Text
  description : Text
  shape : Option Shape

end NodeKind

/-- The known kinds of nodes. -/
structure Registry where
  specs : List NodeKind.Spec

namespace Registry

open NodeKind

/-- The registry without kinds. -/
def empty : Registry := ⟨[]⟩

/-- Find a kind. -/
def get? (r : Registry) (kind : Text) : Option Spec := r.specs.find? (·.kind = kind)

/-- Register a kind in place of one of the same name. -/
def register (r : Registry) (spec : Spec) : Registry :=
  ⟨r.specs.filter (·.kind ≠ spec.kind) ++ [spec]⟩

/-- The kinds in the order of their names. -/
def sorted (r : Registry) : List Spec := r.specs.mergeSort fun a b => Text.atMost a.kind b.kind

/-- The names of the kinds. -/
def kinds (r : Registry) : List Text := r.sorted.map (·.kind)

/-- Say what is wrong with a configuration. -/
def issueText (issue : Issue) : Text :=
  let place := issue.placeText
  (if place.isEmpty then text "cfg" else place) ++ text ": " ++ issue.message

/-- What is wrong with the configuration of a kind. -/
def check (r : Registry) (kind : Text) (cfg : Json) : List Text :=
  match r.get? kind with
  | some ⟨_, _, some shape⟩ => (shape.issues cfg).map issueText
  | _ => []

/-- The kinds that are always there. -/
def builtinSpecs : List Spec :=
  [ ⟨text "trigger", text "Entry point fired by a webhook, a schedule or a manual run.",
      some .trigger⟩,
    ⟨text "action", text "Generic action step with opaque configuration.", none⟩,
    ⟨text "filter", text "Routes to the true or false branch based on an expression.",
      some .filter⟩,
    ⟨text "switch", text "Routes to the branch whose case value matches.", some .switch⟩,
    ⟨text "loop", text "Repeats its branch for each item.", some .loop⟩,
    ⟨text "sequence", text "Runs its branches one after another.", none⟩,
    ⟨text "delay", text "Waits for a duration or until a point in time.", some .delay⟩,
    ⟨text "http-request", text "Calls an HTTP endpoint.", some .httpRequest⟩,
    ⟨text "gen-ai", text "Generates content with a language model.", some .genAi⟩,
    ⟨text "return", text "Ends the run and returns a value.", some .return⟩ ]

/-- Register the kinds that are always there, some described in other words. -/
def withBuiltins (r : Registry) (descriptions : List (Text × Text)) : Registry :=
  builtinSpecs.foldl (fun r spec =>
    r.register { spec with description := (descriptions.lookup spec.kind).getD spec.description }) r

end Registry

end Showrunner

import Showrunner.Board.Compile
import Showrunner.Definition.Reach
import Showrunner.NodeKind.Registry
import Showrunner.Text.Quoted

/-!
# Checking boards

A check reports what an author should look at. Warnings are about the drawing: ids used twice,
connections that lead nowhere, nodes that nothing leads to, labels used twice on one node.
Errors are about the configuration of nodes, as far as a registry knows their kinds.
-/

namespace Showrunner

namespace Board

/-- Something about a drawing that an author should look at. -/
inductive Warning
  | repeatedNode (id : Text)
  | unknownSource (id : Text)
  | intoStart
  | unknownTarget (id : Text)
  | rootless
  | unreachable (id : Text)
  | repeatedLabel (id label : Text)
deriving DecidableEq, Repr

/-- Put a warning into words. -/
def Warning.message : Warning → Text
  | .repeatedNode id => text "Duplicate node id " ++ id.quoted ++ text "; only the first is kept"
  | .unknownSource id => text "Connection from unknown node " ++ id.quoted
  | .intoStart => text "Connections into the start node are ignored"
  | .unknownTarget id => text "Connection to unknown node " ++ id.quoted
  | .rootless => text "Board has no connection from the start node"
  | .unreachable id => text "Node " ++ id.quoted ++ text " is not reachable from the start node"
  | .repeatedLabel id label =>
      text "Node " ++ id.quoted ++ text " has several " ++ label.quoted ++
        text " branches; later ones are renamed"

/-- The ids that occur again, once for each further occurrence. -/
def repeated (seen : List Text) : List Text → List Text
  | [] => []
  | id :: rest =>
      if id ∈ seen then id :: repeated seen rest else repeated (id :: seen) rest

/-- The warnings about a connection, given the ids of the board's nodes. -/
def connectionWarnings (ids : List Text) (c : Connection) : List Warning :=
  (if c.source != startId && !ids.contains c.source then [.unknownSource c.source] else []) ++
    (if c.target = startId then [.intoStart]
     else if !ids.contains c.target then [.unknownTarget c.target] else [])

/-- The warnings about how the root leads to nodes. -/
def reachWarnings (d : Definition) : List Warning :=
  if d.isDegenerate then [.rootless]
  else
    let found := d.reachable
    (d.nodes.filter (!found.contains ·.1)).map fun (id, _) => .unreachable id

/-- The authored labels of a node's connections. -/
def authoredLabels (b : Board) (id : Text) : List Text :=
  (b.leaving id).zipIdx.map fun (c, position) => c.authoredLabel position

/-- The labels that occur more than once, in order. -/
def repeatedLabels (labels : List Text) : List Text :=
  (firsts (labels.filter fun label => 1 < labels.count label)).mergeSort Text.atMost

/-- The warnings about a board. -/
def warnings (b : Board) : List Warning :=
  let ids := b.nodes.map (·.id)
  (repeated [] ids).map .repeatedNode ++
    b.connections.flatMap (connectionWarnings ids) ++
    reachWarnings (b.compile (text "check") (text "Untitled") 1) ++
    (firstNodes b.nodes).flatMap fun n =>
      (repeatedLabels (b.authoredLabels n.id)).map (.repeatedLabel n.id ·)

/-- The errors in the configurations of a board's nodes. -/
def errors (b : Board) (r : Registry) : List Text :=
  (b.compile (text "check") (text "Untitled") 1).nodes.flatMap fun (id, n) =>
    (r.check n.kind (.obj n.cfg)).map fun message => id ++ text ": " ++ message

/-- What a check reports. -/
structure Report where
  warnings : List Text
  errors : List Text

/-- Check a board against a registry, if there is one. -/
def check (b : Board) (registry : Option Registry) : Report :=
  { warnings := b.warnings.map Warning.message
    errors := (registry.map b.errors).getD [] }

end Board

end Showrunner

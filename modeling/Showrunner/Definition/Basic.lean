import Showrunner.Board.Basic

/-!
# Execution definitions

A definition is what runs: nodes with their kind, their configuration, labelled branches to other
nodes, and the nodes that lead to them. It never contains the start node; its root is the node
that the start node leads to. A definition without a root is degenerate.
-/

namespace Showrunner

namespace Definition

/-- A labelled branch to a node. -/
structure Edge where
  label : Text
  target : Text
deriving DecidableEq, Repr

/-- A node of a definition. -/
structure Node where
  id : Text
  kind : Text
  cfg : Fields
  next : Option Text
  prev : List Text
  edges : List Edge
  sub : Option Text

end Definition

/-- What a board is compiled to. -/
structure Definition where
  id : Text
  name : Text
  version : Int
  root : Text
  nodes : List (Text × Definition.Node)

namespace Definition

/-- A definition without a root does not run. -/
def isDegenerate (d : Definition) : Bool := d.root.isEmpty

/-- Find a node. -/
def node? (d : Definition) (id : Text) : Option Node := d.nodes.lookup id

/-- Read a branch. -/
def Edge.read (origin : Origin) : Reader Edge :=
  Reader.record origin "ExecEdge" fun fields =>
    Edge.mk <$> Reader.required "label" Reader.string fields
      <*> Reader.required "target" Reader.string fields

/-- Read a node. -/
def Node.read (origin : Origin) : Reader Node :=
  Reader.record origin "ExecNode" fun fields =>
    Node.mk <$> Reader.required "id" Reader.string fields
      <*> Reader.required "kind" Reader.string fields
      <*> Reader.optional ["cfg"] [] (Reader.mapping Reader.any) fields
      <*> Reader.optional ["next"] none (Reader.nullable Reader.string) fields
      <*> Reader.optional ["prev"] [] (Reader.list Reader.string) fields
      <*> Reader.optional ["edges"] [] (Reader.list (Edge.read origin)) fields
      <*> Reader.optional ["sub"] none (Reader.nullable Reader.string) fields

/-- Report a definition that contains the start node. -/
def startInside (given : Json) : Verdict Definition :=
  Reader.refuse "value_error" "Value error, Execution definitions never contain the start node" given
    []

/-- Read a definition. -/
def read (origin : Origin) : Reader Definition := fun v =>
  let verdict := Reader.record origin "ExecutionDefinition" (fun fields =>
    Definition.mk <$> Reader.required "id" Reader.string fields
      <*> Reader.required "name" Reader.string fields
      <*> Reader.optional ["version"] 1 Reader.integer fields
      <*> Reader.optional ["root"] [] Reader.string fields
      <*> Reader.optional ["nodes"] [] (Reader.mapping (Node.read origin)) fields) v
  verdict.andThen fun d => if (d.node? startId).isSome then startInside v else .valid d

/-- Write a branch. -/
def Edge.dump (e : Edge) : Json :=
  .obj [(text "label", .str e.label), (text "target", .str e.target)]

/-- Write a node. -/
def Node.dump (n : Node) : Json :=
  .obj [(text "id", .str n.id), (text "kind", .str n.kind),
    (text "cfg", .obj (Json.finiteFields n.cfg)), (text "next", Json.ofText? n.next),
    (text "prev", .arr (n.prev.map .str)), (text "edges", .arr (n.edges.map Edge.dump)),
    (text "sub", Json.ofText? n.sub)]

/-- Write a definition. -/
def dump (d : Definition) : Json :=
  .obj [(text "id", .str d.id), (text "name", .str d.name), (text "version", .int d.version),
    (text "root", .str d.root), (text "nodes", .obj (d.nodes.map fun (id, n) => (id, n.dump)))]

/-- A definition as it comes back from a document, where numbers are finite. -/
def settled (d : Definition) : Definition :=
  { d with nodes := d.nodes.map fun (id, n) => (id, { n with cfg := Json.finiteFields n.cfg }) }

end Definition

end Showrunner

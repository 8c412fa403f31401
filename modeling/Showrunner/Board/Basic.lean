import Showrunner.Validation.Reader

/-!
# Boards

A board is what an author draws: nodes with a kind and a configuration, and connections between
them. A node may be written flat or with its fields inside a `data` object beside a `position`;
lifting brings the second shape to the first, the flat fields winning. Connections may be called
edges, and their label may be called a source handle.
-/

namespace Showrunner

/-- The id of the node where every board starts. -/
def startId : Text := text "start"

namespace Board

/-- A node as authored. -/
structure Node where
  id : Text
  kind : Text
  config : Fields

/-- A connection as authored. -/
structure Connection where
  source : Text
  target : Text
  label : Option Text
deriving DecidableEq, Repr

end Board

/-- Nodes and the connections between them. -/
structure Board where
  nodes : List Board.Node
  connections : List Board.Connection

namespace Board

/-- Add the fields that are not there yet. -/
def addAbsent (fields more : Fields) : Fields :=
  more.foldl (fun fields (name, v) => if fields.has name then fields else fields ++ [(name, v)])
    fields

/-- Bring the fields of a node to the flat shape. -/
def liftNode (fields : Fields) : Fields :=
  let own := fields.without (text "data")
  let lifted :=
    match fields.get? (text "data") with
    | some (.obj data) => addAbsent own data
    | _ => own
  let lifted := lifted.without (text "position")
  match lifted.get? (text "config") with
  | none | some .null => lifted.put (text "config") (.obj [])
  | some _ => lifted

/-- Read a node. -/
def Node.read (origin : Origin) : Reader Node :=
  Reader.record origin "BoardNode" fun raw =>
    let fields := liftNode raw
    Node.mk <$> Reader.required "id" Reader.string fields
      <*> Reader.optional ["actionKind", "action_kind"] [] Reader.string fields
      <*> Reader.optional ["config"] [] (Reader.mapping Reader.any) fields

/-- Read a connection. -/
def Connection.read (origin : Origin) : Reader Connection :=
  Reader.record origin "Connection" fun fields =>
    Connection.mk <$> Reader.required "source" Reader.string fields
      <*> Reader.required "target" Reader.string fields
      <*> Reader.optional ["label", "sourceHandle"] none (Reader.nullable Reader.string) fields

/-- The board without nodes. -/
def empty : Board := ⟨[], []⟩

/-- Read a board. -/
def read (origin : Origin) : Reader Board :=
  Reader.record origin "Board" fun fields =>
    Board.mk <$> Reader.optional ["nodes"] [] (Reader.list (Node.read origin)) fields
      <*> Reader.optional ["connections", "edges"] [] (Reader.list (Connection.read origin)) fields

/-- Write a node; `kindName` names the field of the kind. -/
def Node.dump (kindName : String) (n : Node) : Json :=
  .obj [(text "id", .str n.id), (text kindName, .str n.kind),
    (text "config", .obj (Json.finiteFields n.config))]

/-- Write a connection. -/
def Connection.dump (c : Connection) : Json :=
  .obj [(text "source", .str c.source), (text "target", .str c.target),
    (text "label", Json.ofText? c.label)]

/-- Write a board; `kindName` names the field of a node's kind. -/
def dump (kindName : String) (b : Board) : Json :=
  .obj [(text "nodes", .arr (b.nodes.map (·.dump kindName))),
    (text "connections", .arr (b.connections.map Connection.dump))]

/-- A board as it comes back from a document, where numbers are finite. -/
def settled (b : Board) : Board :=
  { b with nodes := b.nodes.map fun n => { n with config := Json.finiteFields n.config } }

end Board

end Showrunner

import Showrunner.Definition.Basic
import Showrunner.Json.Write

/-!
# Compiling boards

Compiling never fails: a board that is only partly wired gives a definition with an empty root or
with nodes that nothing leads to. Of nodes with one id the first counts, and so does the first of
equal connections. The connections that leave a node become its branches in the authored order;
a branch without a label is named for its position, and a label that is taken gets a number.
Filters and switches add the branches that their configuration names, unless the label is in use.

The label of a case is written from its value. Writers refuse integers with more digits, and values
that nest deeper, than documents have that are read; here a label is given to such a value too. A
board that is read from a document has none.
-/

namespace Showrunner

/-- Keep the first element for each key that is not among those seen. -/
def firstsBy {α β : Type} [DecidableEq β] (key : α → β) (seen : List β) : List α → List α
  | [] => []
  | a :: rest =>
      if key a ∈ seen then firstsBy key seen rest else a :: firstsBy key (key a :: seen) rest

/-- Keep the first of equal elements. -/
def firsts {α : Type} [DecidableEq α] (as : List α) : List α := firstsBy id [] as

namespace Board

/-- Keep the first of the nodes with one id. -/
def firstNodes (nodes : List Node) : List Node := firstsBy Node.id [] nodes

/-- The distinct connections that leave a node, in the authored order. -/
def leaving (b : Board) (id : Text) : List Connection :=
  firsts (b.connections.filter (·.source = id))

/-- The distinct nodes from which a connection leads into a node, in the authored order. -/
def entering (b : Board) (id : Text) : List Text :=
  firsts ((b.connections.filter (·.target = id)).map (·.source))

/-- The label of a connection: its own, or one named for its position among those of its node. -/
def Connection.authoredLabel (c : Connection) (position : Nat) : Text :=
  match c.label with
  | some (p :: label) => p :: label
  | _ => text "branch-" ++ Text.ofNat position

/-- A label with a number. -/
def numbered (label : Text) (n : Nat) : Text := label ++ text "-" ++ Text.ofNat n

/-- The first of the numbers from `n` on with which a label is free, among `tries` and the next. -/
def firstFree (label : Text) (taken : List Text) (n : Nat) : (tries : Nat) → Text
  | 0 => numbered label n
  | tries + 1 =>
      if numbered label n ∈ taken then firstFree label taken (n + 1) tries else numbered label n

/-- A label that is not taken: the label itself, or the label with the first free number. -/
def freeLabel (label : Text) (n : Nat) (taken : List Text) : Text :=
  if label ∈ taken then firstFree label taken n taken.length else label

/-- Turn connections into branches, from a position on, with the labels taken so far. -/
def branchesFrom (position : Nat) (taken : List Text) : List Connection → List Definition.Edge
  | [] => []
  | c :: rest =>
      let label := freeLabel (c.authoredLabel position) position taken
      ⟨label, c.target⟩ :: branchesFrom (position + 1) (label :: taken) rest

/-- The branches of a node that are drawn as connections. -/
def branches (b : Board) (id : Text) : List Definition.Edge := branchesFrom 0 [] (b.leaving id)

/-- What ends the kind of a trigger. -/
def triggerEnding : Text := text "-trigger"

/-- The kind of a node as it runs, and the subtype of a trigger. -/
def resolveKind (kind : Text) (cfg : Fields) : Text × Option Text :=
  match Text.dropEnding? triggerEnding kind with
  | none => (kind, none)
  | some _ =>
      let subtype :=
        match Fields.get? cfg (text "subtype") with
        | some (.str (p :: t)) => p :: t
        | _ => text "webhook"
      (text "trigger", some ((Text.dropEnding? triggerEnding subtype).getD subtype))

/-- The label of a case: a text as it is, any other value as a document. It stands for what is written
of a value within the limits of documents; no writer is asked for another one. -/
def caseLabel : Json → Text
  | .str t => t
  | v => Json.writeText v

/-- A target that a configuration names: a text that is not empty. -/
def targetOf : Option Json → Option Text
  | some (.str (p :: t)) => some (p :: t)
  | _ => none

/-- The branch of a case. -/
def caseEdge? : Json → Option Definition.Edge
  | .obj case =>
      (targetOf (Fields.get? case (text "next"))).map fun target =>
        ⟨caseLabel ((Fields.get? case (text "value")).getD .null), target⟩
  | _ => none

/-- The branches that the configuration of a node names. -/
def configEdges (kind : Text) (cfg : Fields) : List Definition.Edge :=
  if kind = text "filter" then
    [(text "true", text "nextTrue"), (text "false", text "nextFalse")].filterMap
      fun (label, key) => (targetOf (Fields.get? cfg key)).map fun target => ⟨label, target⟩
  else if kind = text "switch" then
    match Fields.get? cfg (text "cases") with
    | some (.arr cases) => cases.filterMap caseEdge?
    | _ => []
  else []

/-- Keep the edges whose label is neither taken nor used before. -/
def unusedEdges (taken : List Text) : List Definition.Edge → List Definition.Edge
  | [] => []
  | e :: rest =>
      if e.label ∈ taken then unusedEdges taken rest else e :: unusedEdges (e.label :: taken) rest

/-- Compile a node. -/
def compileNode (b : Board) (n : Node) : Definition.Node :=
  let drawn := b.branches n.id
  let (kind, sub) := resolveKind n.kind n.config
  { id := n.id
    kind := kind
    cfg := n.config
    next := drawn.head?.map (·.target)
    prev := b.entering n.id
    edges := drawn ++ unusedEdges (drawn.map (·.label)) (configEdges kind n.config)
    sub := sub }

/-- The nodes of a board that run. -/
def runningNodes (b : Board) : List Node := (firstNodes b.nodes).filter (·.id ≠ startId)

/-- Compile a board. -/
def compile (b : Board) (id name : Text) (version : Int) : Definition :=
  { id := id
    name := name
    version := version
    root := ((b.branches startId).head?.map (·.target)).getD []
    nodes := b.runningNodes.map fun n => (n.id, b.compileNode n) }

end Board

end Showrunner

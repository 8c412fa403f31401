import Showrunner.Json.Write
import Showrunner.Store.Columns

/-!
# Workflows in the store

Board, definition and warnings are stored as documents, which are written when a workflow is saved and
read when it is found. In a document of a record numbers that are not finite become null, and a text with
half of a pair has no place. A workflow is created with all its fields; an update leaves its id and its
time of creation alone.
-/

namespace Showrunner

namespace Store

/-- A stored workflow as a workflow. -/
def WorkflowRow.toWorkflow (r : WorkflowRow) : Except Fault Workflow := do
  let board ← readRecord (Board.read .value) r.board
  let definition ← readRecord (Definition.read .value) r.definition
  let warnings ← ((Reader.list Reader.string (← readColumn r.warnings)).under
    (.field (text "warnings"))).toExcept
  pure
    { id := r.id
      name := r.name
      version := r.version
      board := board
      definition := definition
      warnings := warnings
      createdAt := Stamp.utc r.createdAt
      updatedAt := Stamp.utc r.updatedAt }

/-- Write the document of a record, unless it holds a text without encoding. -/
def recordDocument (v : Json) : Except Fault Text :=
  match v.strayHalf? with
  | none => .ok v.writeText
  | some t =>
      .error (.dump (text "Error serializing to JSON: UnicodeEncodeError: " ++
        (Utf8.unencodable? t).getD []))

/-- Write the documents of a workflow's board and of its definition. -/
def documentsOf (w : Workflow) : Except Fault (Text × Text) := do
  let board ← recordDocument (w.board.dump "action_kind")
  let definition ← recordDocument w.definition.dump
  pure (board, definition)

/-- Create a workflow. -/
def createWorkflow (s : Store) (w : Workflow) : Except Fault (Store × Workflow) := do
  let (board, definition) ← documentsOf w
  let createdAt ← instantOf w.createdAt
  let updatedAt ← instantOf w.updatedAt
  let rows ← rowsOf .workflows s.workflows
  encodable [w.id, w.name]
  storable w.version
  if rows.any (·.id = w.id) then .error (taken .workflows)
  let row : WorkflowRow :=
    { id := w.id
      name := w.name
      version := w.version
      board := board
      definition := definition
      warnings := (Workflow.dumpTexts w.warnings).writeText
      createdAt := createdAt
      updatedAt := updatedAt }
  pure ({ s with workflows := some (rows ++ [row]) }, w)

/-- A workflow as an update leaves it, with the documents of its board and of its definition. -/
def WorkflowRow.update (w : Workflow) (board definition : Text) (updatedAt : Wall) (r : WorkflowRow) :
    WorkflowRow :=
  { r with
    name := w.name
    version := w.version
    board := board
    definition := definition
    warnings := (Workflow.dumpTexts w.warnings).writeText
    updatedAt := updatedAt }

/-- Update a workflow, if there is one with the id. -/
def updateWorkflow (s : Store) (id : Text) (w : Workflow) :
    Except Fault (Store × Option Workflow) := do
  let (board, definition) ← documentsOf w
  let updatedAt ← instantOf w.updatedAt
  let rows ← rowsOf .workflows s.workflows
  encodable [w.name]
  storable w.version
  encodable [id]
  let changed := modify WorkflowRow.id id (WorkflowRow.update w board definition updatedAt) rows
  pure ({ s with workflows := some changed }, if rows.any (·.id = id) then some w else none)

/-- Find the row of a workflow. -/
def workflowRow? (s : Store) (id : Text) : Except Fault (Option WorkflowRow) := do
  let rows ← rowsOf .workflows s.workflows
  encodable [id]
  pure (rows.find? (·.id = id))

/-- Find a workflow. -/
def getWorkflow (s : Store) (id : Text) : Except Fault (Option Workflow) := do
  (← s.workflowRow? id).mapM WorkflowRow.toWorkflow

/-- Find the definition of a workflow. -/
def getDefinition (s : Store) (id : Text) : Except Fault (Option Definition) := do
  (← s.workflowRow? id).mapM fun r => readRecord (Definition.read .value) r.definition

/-- List the workflows, the latest created first. -/
def listWorkflows (s : Store) : Except Fault (List Workflow) := do
  let rows ← rowsOf .workflows s.workflows
  (rows.mergeSort fun a b => b.createdAt ≤ a.createdAt).mapM WorkflowRow.toWorkflow

end Store

end Showrunner

import Showrunner.Plan.Basic
import Showrunner.Text.Utf8
import Showrunner.Webhook.Event
import Showrunner.Workflow.Basic

/-!
# The store

The store has three tables: workflows, content plans and captured events. A table is missing once
it has been dropped. Rows keep the order of their insertion, ids are distinct within a table, and
all stamps are kept as wall readings of universal time. An operation that fails leaves the store
as it was. Failures come in the order in which an operation meets them: stamps that leave the
calendar, a missing table, values that have no place in a column, ids that are taken.
-/

namespace Showrunner

namespace Store

/-- A content plan as stored. -/
structure PlanRow where
  id : Text
  userId : Text
  influencerId : Text
  lookId : Text
  prompt : Text
  title : Option Text
  startsAt : Wall
  anchorAt : Option Wall
  rrule : Option Text
  status : Plan.Status
  lastRunAt : Option Wall
  lastError : Option Text
  claimedAt : Option Wall
  createdAt : Wall
deriving DecidableEq, Repr

/-- A workflow as stored; board, definition and warnings are documents. -/
structure WorkflowRow where
  id : Text
  name : Text
  version : Int
  board : Text
  definition : Text
  warnings : Text
  createdAt : Wall
  updatedAt : Wall

/-- A captured event as stored; payload and headers are documents. -/
structure EventRow where
  id : Text
  workflowId : Text
  nodeId : Text
  payload : Text
  headers : Text
  capturedAt : Wall

/-- A table: its rows, unless it has been dropped. -/
abbrev Table (Row : Type) := Option (List Row)

end Store

/-- The tables. -/
structure Store where
  workflows : Store.Table Store.WorkflowRow
  plans : Store.Table Store.PlanRow
  events : Store.Table Store.EventRow

namespace Store

/-- The store of a new service: all tables, no rows. -/
def empty : Store := ⟨some [], some [], some []⟩

/-- Name a table. -/
inductive TableName
  | workflows
  | plans
  | events
deriving DecidableEq, Repr

/-- The name of a table. -/
def TableName.text : TableName → Text
  | .workflows => Showrunner.text "workflows"
  | .plans => Showrunner.text "content_plans"
  | .events => Showrunner.text "captured_events"

/-- Say that a table is missing. -/
def missing (name : Text) : Fault := .operational (text "no such table: " ++ name)

/-- The rows of a table, or that it is missing. -/
def rowsOf {Row : Type} (name : TableName) (table : Table Row) : Except Fault (List Row) :=
  match table with
  | some rows => .ok rows
  | none => .error (missing name.text)

/-- Say that an id is taken. -/
def taken (name : TableName) : Fault :=
  .integrity (text "UNIQUE constraint failed: " ++ name.text ++ text ".id")

/-- Refuse texts that have no encoding. -/
def encodable : List Text → Except Fault Unit
  | [] => .ok ()
  | t :: rest =>
      match Utf8.unencodable? t with
      | some message => .error (.encoding message)
      | none => encodable rest

/-- Refuse an integer of more than 64 bits. -/
def storable (n : Int) : Except Fault Unit :=
  if -9223372036854775808 ≤ n ∧ n < 9223372036854775808 then .ok ()
  else .error (.overflow (text "Python int too large to convert to SQLite INTEGER"))

/-- The universal time of a stamp, or that it leaves the calendar. -/
def instantOf (s : Stamp) : Except Fault Wall := do pure (← s.toUtc).wall

/-- The universal time of a stamp, if there is one. -/
def instantOf? (s : Option Stamp) : Except Fault (Option Wall) := s.mapM instantOf

/-- Change the rows with an id. -/
def modify {Row : Type} (key : Row → Text) (id : Text) (f : Row → Row) (rows : List Row) : List Row :=
  rows.map fun r => if key r = id then f r else r

/-- Drop a table. -/
def dropTable (s : Store) (name : Text) : Except Fault Store :=
  if name = TableName.workflows.text then do
    let _ ← rowsOf .workflows s.workflows
    pure { s with workflows := none }
  else if name = TableName.plans.text then do
    let _ ← rowsOf .plans s.plans
    pure { s with plans := none }
  else if name = TableName.events.text then do
    let _ ← rowsOf .events s.events
    pure { s with events := none }
  else .error (missing name)

end Store

end Showrunner

import Showrunner.Definition.Basic
import Showrunner.Time.Write

/-!
# Saved workflows

A workflow is a named board with the definition that it was compiled to and the warnings of its
check. Its version counts the times it was saved.
-/

namespace Showrunner

/-- A saved workflow. -/
structure Workflow where
  id : Text
  name : Text
  version : Int
  board : Board
  definition : Definition
  warnings : List Text
  createdAt : Stamp
  updatedAt : Stamp

namespace Workflow

open Reader

/-- A board to be compiled or saved under a name. -/
structure Submission where
  name : Text
  board : Board

/-- Read a submission; `record` names the record. -/
def Submission.read (origin : Origin) (recordName : String) : Reader Submission :=
  record origin recordName fun fields =>
    Submission.mk <$> optional ["name"] (text "Untitled") string fields
      <*> optional ["board"] Board.empty (Board.read origin) fields

/-- Write a submission. -/
def Submission.dump (s : Submission) : Json :=
  .obj [(text "name", .str s.name), (text "board", s.board.dump "action_kind")]

/-- What compiling answers: a definition and what the check reports. -/
structure Compiled where
  definition : Definition
  warnings : List Text

/-- Read what compiling answers. -/
def Compiled.read (origin : Origin) : Reader Compiled :=
  record origin "CompileResponse" fun fields =>
    Compiled.mk <$> required "definition" (Definition.read origin) fields
      <*> optional ["warnings"] [] (list string) fields

/-- Write a list of texts. -/
def dumpTexts (texts : List Text) : Json := .arr (texts.map .str)

/-- Write what compiling answers. -/
def Compiled.dump (c : Compiled) : Json :=
  .obj [(text "definition", c.definition.dump), (text "warnings", dumpTexts c.warnings)]

/-- Read a workflow; one without times was made now. -/
def read (origin : Origin) (now : Stamp) : Reader Workflow :=
  record origin "WorkflowRecord" fun fields =>
    Workflow.mk <$> required "id" string fields <*> required "name" string fields
      <*> optional ["version"] 1 integer fields
      <*> required "board" (Board.read origin) fields
      <*> required "definition" (Definition.read origin) fields
      <*> optional ["warnings"] [] (list string) fields
      <*> optional ["created_at"] now instant fields
      <*> optional ["updated_at"] now instant fields

/-- Write a workflow; `kindName` names the field of a node's kind. -/
def dump (kindName : String) (w : Workflow) : Json :=
  .obj [(text "id", .str w.id), (text "name", .str w.name), (text "version", .int w.version),
    (text "board", w.board.dump kindName), (text "definition", w.definition.dump),
    (text "warnings", dumpTexts w.warnings), (text "created_at", .str w.createdAt.toPlainText),
    (text "updated_at", .str w.updatedAt.toPlainText)]

end Workflow

end Showrunner

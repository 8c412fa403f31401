import Showrunner.Json.Read
import Showrunner.Store.Basic

/-!
# Documents in columns

A column holds a document as a text, which is read when its row is. A document of a record is read and
validated at once; it nests less deep than others may. What is wrong with it is an issue with the record.
-/

namespace Showrunner

namespace Store

/-- Read a document that a column holds. It has one line. -/
def readColumn (document : Text) : Except Fault Json :=
  match Json.read .outside document with
  | .ok v => .ok v
  | .error (.malformed fault left) =>
      let position := document.length - left
      .error (.value (text fault.message ++ text ": line 1 column " ++ Text.ofNat (position + 1) ++
        text " (char " ++ Text.ofNat position ++ text ")"))
  | .error (.tooManyDigits count) => .error (.value (Integer.limitMessage count))
  | .error (.tooDeep container) => .error (.depth (Json.depthLimitMessage container))

/-- The limits for documents of records. -/
def recordLimits : Json.Limits := ⟨200, some Integer.digitLimit⟩

/-- Say what is wrong with the document of a record. -/
def recordTrouble : Json.Refusal → String
  | .malformed fault _ => fault.message
  | .tooManyDigits _ => "number out of range"
  | .tooDeep _ => "recursion limit exceeded"

/-- Read a record whose document a column holds. -/
def readRecord {α : Type} (read : Reader α) (document : Text) : Except Fault α :=
  match Json.read recordLimits document with
  | .ok v => (read v).toExcept
  | .error refusal =>
      let trouble := text (recordTrouble refusal)
      .error (.invalid [⟨text "json_invalid", [], text "Invalid JSON: " ++ trouble, .str document,
        [(text "error", .str trouble)]⟩])

end Store

end Showrunner

import Showrunner.Settings.Trouble
import Showrunner.Text.Blank
import Showrunner.Text.Case

/-!
# Settings documents

A settings document consists of groups of options. A group starts with a line that holds its name
in brackets. An option is a line with a name and a value behind the first `=` or `:`; deeper
indented lines go on with the value, and so do blank lines between them. A line that starts with
`#` or `;` is a comment. Names of options are lowered. The options of the common group hold in
every group that does not have its own.
-/

namespace Showrunner

namespace Settings

/-- A document: its groups in order with their options. -/
structure Document where
  groups : List (Text × List (Text × Text))
deriving DecidableEq, Repr

namespace Document

/-- A document without groups. -/
def empty : Document := ⟨[]⟩

/-- The name of the group whose options are common to all. -/
def commonGroup : Text := text "DEFAULT"

/-- Decide whether a document has a group of its own. -/
def hasGroups (d : Document) : Bool := d.groups.any (·.1 != commonGroup)

/-- The options of a group, if the document has the group. -/
def options? (d : Document) (group : Text) : Option (List (Text × Text)) := d.groups.lookup group

/-- The common options. -/
def common (d : Document) : List (Text × Text) := (d.options? commonGroup).getD []

/-- The written value of an option as seen from a group. -/
def raw? (d : Document) (group option : Text) : Option Text := do
  let options ← d.options? group
  options.lookup option <|> d.common.lookup option

/-- Take every way to end a line as the same. -/
def plainLines : Text → Text
  | [] => []
  | .scalar '\r' :: .scalar '\n' :: rest => .scalar '\n' :: plainLines rest
  | .scalar '\r' :: rest => .scalar '\n' :: plainLines rest
  | p :: rest => p :: plainLines rest

/-- Split a text into lines that keep their ends. -/
def linesOf : Text → List Text
  | [] => []
  | .scalar '\n' :: rest => [.scalar '\n'] :: linesOf rest
  | p :: rest =>
      match linesOf rest with
      | [] => [[p]]
      | line :: lines =>
          -- A line that only holds its end belongs to the point in front of it.
          (p :: line) :: lines

/-- The state of a reading. The group and the option are those that the next line belongs to; the
indentation is that of the line that opened them. -/
structure Reading where
  groups : List (Text × List (Text × List Text))
  group : Option Text
  option : Option Text
  indent : Nat
  openedGroups : List Text
  openedOptions : List (Text × Text)
  unreadable : List (Nat × Text)

/-- Change the value of a name, or give it one at the end. -/
def update {α : Type} (name : Text) (f : Option α → α) : List (Text × α) → List (Text × α)
  | [] => [(name, f none)]
  | (other, a) :: rest =>
      if other = name then (name, f (some a)) :: rest else (other, a) :: update name f rest

/-- A reading that goes on from a document. -/
def Reading.of (d : Document) : Reading :=
  { groups := d.groups.map fun (group, options) =>
      (group, options.map fun (option, value) => (option, [value]))
    group := none
    option := none
    indent := 0
    openedGroups := []
    openedOptions := []
    unreadable := [] }

/-- The document of a reading: lines of a value are joined, and blanks at its end are dropped. -/
def Reading.document (r : Reading) : Document :=
  ⟨r.groups.map fun (group, options) =>
    (group, options.map fun (option, lines) =>
      (option, (Text.joined (text "\n") lines).dropEndWhile CodePoint.isBlank))⟩

/-- Change the lines of the option that is open, if one is. -/
def Reading.extend (r : Reading) (line : Text) : Reading :=
  match r.group, r.option with
  | some group, some option =>
      let grow (lines : Option (List Text)) : List Text := lines.getD [] ++ [line]
      let growOption (options : Option (List (Text × List Text))) := update option grow (options.getD [])
      { r with groups := update group growOption r.groups }
  | _, _ => r

/-- The name in the brackets that a line starts with. -/
def header? : Text → Option Text
  | .scalar '[' :: rest =>
      if rest.contains (.scalar ']') then
        let name := (rest.reverse.dropWhile (· != .scalar ']')).tail.reverse
        if name.isEmpty then none else some name
      else none
  | _ => none

/-- Recognise what stands between a name and a value. -/
def isDelimiter (p : CodePoint) : Bool := p == .scalar '=' || p == .scalar ':'

/-- The name and the value of a line. -/
def option? (line : Text) : Option (Text × Text) :=
  let name := line.takeWhile (!isDelimiter ·)
  match line.drop name.length with
  | [] => none
  | _ :: value => some (Text.dropEndWhile CodePoint.isBlank name, Text.trim value)

/-- Open a group. -/
def Reading.openGroup (r : Reading) (file : Text) (number : Nat) (group : Text) :
    Except Trouble Reading :=
  if r.openedGroups.contains group then .error (.repeatedGroup file number group)
  else
    .ok
      { r with
        groups := update group (·.getD []) r.groups
        group := some group
        option := none
        openedGroups := if group = commonGroup then r.openedGroups else group :: r.openedGroups }

/-- Note a line that cannot be read. -/
def Reading.noteUnreadable (r : Reading) (number : Nat) (line : Text) : Reading :=
  { r with unreadable := r.unreadable ++ [(number, line)] }

/-- Open an option of a group. An option without a name is noted, and no line goes on with it. -/
def Reading.openOption (r : Reading) (file : Text) (number : Nat) (line group name value : Text) :
    Except Trouble Reading :=
  let r := if name.isEmpty then r.noteUnreadable number line else r
  let name := name.lower
  if r.openedOptions.contains (group, name) then .error (.repeatedOption file number group name)
  else
    let set (options : Option (List (Text × List Text))) := update name (fun _ => [value]) (options.getD [])
    .ok
      { r with
        groups := update group set r.groups
        option := if name.isEmpty then none else some name
        openedOptions := (group, name) :: r.openedOptions }

/-- Recognise a comment. -/
def isComment (trimmed : Text) : Bool :=
  trimmed.head? == some (.scalar '#') || trimmed.head? == some (.scalar ';')

/-- Read a line. -/
def Reading.step (r : Reading) (file : Text) (number : Nat) (line : Text) :
    Except Trouble Reading :=
  let trimmed := line.trim
  if isComment trimmed then .ok r
  else if trimmed.isEmpty then .ok (r.extend [])
  else
    let indent := (line.takeWhile CodePoint.isBlank).length
    if r.group.isSome ∧ r.option.isSome ∧ r.indent < indent then .ok (r.extend trimmed)
    else
      let r := { r with indent := indent }
      match header? trimmed, r.group with
      | some name, _ => r.openGroup file number name
      | none, none => .error (.headless file number line)
      | none, some group =>
          match option? trimmed with
          | some (name, value) => r.openOption file number line group name value
          | none => .ok (r.noteUnreadable number line)

/-- Read numbered lines. -/
def Reading.steps (file : Text) : List (Text × Nat) → Reading → Except Trouble Reading
  | [], r => .ok r
  | (line, number) :: rest, r => do steps file rest (← r.step file number line)

/-- Read a document from a named file, on top of what has been read. -/
def read (d : Document) (file content : Text) : Except Trouble Document := do
  let r ← Reading.steps file ((linesOf (plainLines content)).zipIdx 1) (Reading.of d)
  if r.unreadable.isEmpty then pure r.document else .error (.unreadable file r.unreadable)

end Document

end Settings

end Showrunner

import Showrunner.Text.Quoted

/-!
# Troubles with settings

A settings document can be unreadable, and a setting can refer to others in a way that gives it no
value. Each trouble keeps what its message shows.
-/

namespace Showrunner

namespace Settings

/-- Why settings cannot be read or a setting has no value. -/
inductive Trouble
  | headless (file : Text) (line : Nat) (content : Text)
  | unreadable (file : Text) (lines : List (Nat × Text))
  | repeatedGroup (file : Text) (line : Nat) (group : Text)
  | repeatedOption (file : Text) (line : Nat) (group option : Text)
  | strayPercent (rest : Text)
  | openReference (rest : Text)
  | unknownReference (group option raw reference : Text)
  | endlessReference (group option raw : Text)
deriving DecidableEq, Repr

namespace Trouble

/-- How many references may be followed one inside another. -/
def referenceDepth : Nat := 10

/-- Name a trouble. -/
def name : Trouble → Text
  | .headless .. => text "MissingSectionHeaderError"
  | .unreadable .. => text "ParsingError"
  | .repeatedGroup .. => text "DuplicateSectionError"
  | .repeatedOption .. => text "DuplicateOptionError"
  | .strayPercent .. => text "InterpolationSyntaxError"
  | .openReference .. => text "InterpolationSyntaxError"
  | .unknownReference .. => text "InterpolationMissingOptionError"
  | .endlessReference .. => text "InterpolationDepthError"

/-- Write a line number in at least two columns. -/
def lineText (line : Nat) : Text :=
  let digits := Text.ofNat line
  text "[line " ++ List.replicate (2 - digits.length) (.scalar ' ') ++ digits ++ text "]"

/-- Say what is wrong. -/
def message : Trouble → Text
  | .headless file line content =>
      text "File contains no section headers.\nfile: " ++ file ++ text ", line: " ++
        Text.ofNat line ++ text "\n" ++ content.quoted
  | .unreadable file lines =>
      text "Source contains parsing errors: " ++ file ++
        lines.flatMap fun (line, content) =>
          text "\n\t" ++ lineText line ++ text ": " ++ content.quoted
  | .repeatedGroup file line group =>
      text "While reading from " ++ file ++ text " " ++ lineText line ++ text ": section " ++
        group.quoted ++ text " already exists"
  | .repeatedOption file line group option =>
      text "While reading from " ++ file ++ text " " ++ lineText line ++ text ": option " ++
        option.quoted ++ text " in section " ++ group.quoted ++ text " already exists"
  | .strayPercent rest => text "'%' must be followed by '%' or '(', found: " ++ rest.quoted
  | .openReference rest => text "bad interpolation variable reference " ++ rest.quoted
  | .unknownReference group option raw reference =>
      text "Bad value substitution: option " ++ option.quoted ++ text " in section " ++
        group.quoted ++ text " contains an interpolation key " ++ reference.quoted ++
        text " which is not a valid option name. Raw value: " ++ raw.quoted
  | .endlessReference group option raw =>
      text "Recursion limit exceeded in value substitution: option " ++ option.quoted ++
        text " in section " ++ group.quoted ++
        text " contains an interpolation key which cannot be substituted in " ++
        Text.ofNat referenceDepth ++ text " steps. Raw value: " ++ raw.quoted

end Trouble

end Settings

end Showrunner

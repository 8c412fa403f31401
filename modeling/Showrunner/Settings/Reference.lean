import Showrunner.Settings.Document

/-!
# References between settings

In a value, `%(name)s` stands for the value of another option as seen from the same group, and
`%%` for a percent sign. References may be nested, but not without end.
-/

namespace Showrunner

namespace Settings

/-- A piece of a value. The two last ones are mistakes and end it. -/
inductive Piece
  | literal (t : Text)
  | reference (name : Text)
  | stray (rest : Text)
  | unclosed (rest : Text)
deriving DecidableEq, Repr

namespace Piece

/-- Put a code point in front of pieces. -/
def cons (p : CodePoint) : List Piece → List Piece
  | .literal t :: rest => .literal (p :: t) :: rest
  | pieces => .literal [p] :: pieces

/-- Split off the name of a reference whose opening has been read. -/
def reference? (t : Text) : Option (Text × Text) :=
  let name := t.takeWhile (· != .scalar ')')
  match t.drop name.length with
  | .scalar ')' :: .scalar 's' :: rest => if name.isEmpty then none else some (name, rest)
  | _ => none

/-- Split a value into pieces. -/
def ofValue : (length : Nat) → Text → List Piece
  | 0, _ => []
  | _, [] => []
  | length + 1, t@(.scalar '%' :: rest) =>
      match rest with
      | .scalar '%' :: rest => cons (.scalar '%') (ofValue length rest)
      | .scalar '(' :: rest =>
          match reference? rest with
          | some (name, rest) => .reference name :: ofValue length rest
          | none => [.unclosed t]
      | _ => [.stray t]
  | length + 1, p :: rest => cons p (ofValue length rest)

/-- Put pieces together, given the value of each reference. -/
def join (valueOf : Text → Except Trouble Text) : List Piece → Except Trouble Text
  | [] => .ok []
  | .literal t :: rest => do pure (t ++ (← join valueOf rest))
  | .reference name :: rest => do
      let value ← valueOf name
      pure (value ++ (← join valueOf rest))
  | .stray rest :: _ => .error (.strayPercent rest)
  | .unclosed rest :: _ => .error (.openReference rest)

end Piece

namespace Document

/-- The value of an option whose written value is `raw`, following at most `depth` references one
inside another from a value that it meets on the way. -/
def expand (d : Document) (group option raw : Text) : (depth : Nat) → Text → Except Trouble Text
  | 0, _ => .error (.endlessReference group option raw)
  | depth + 1, value =>
      let valueOf (name : Text) : Except Trouble Text :=
        match d.raw? group name.lower with
        | none => .error (.unknownReference group option raw name.lower)
        | some v => if v.contains (.scalar '%') then expand d group option raw depth v else .ok v
      Piece.join valueOf (Piece.ofValue value.length value)

/-- The value of an option as seen from a group, if it has one. -/
def value? (d : Document) (group option : Text) : Except Trouble (Option Text) :=
  match d.raw? group option with
  | none => .ok none
  | some raw => (d.expand group option raw Trouble.referenceDepth raw).map some

end Document

end Settings

end Showrunner

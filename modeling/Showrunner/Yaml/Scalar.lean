import Showrunner.Yaml.Cursor

/-!
# Scalars of a YAML document

A scalar is written plain, between quotes, or as a block. Line ends within plain and quoted scalars
are folded: one becomes a blank, of several the first is dropped. Each reader starts at the first
character of a scalar and returns the cursor behind it.
-/

namespace Showrunner

namespace Yaml

/-- Fold a line end and those behind it. -/
def fold (first breaks : List Char) : List Char :=
  if first != ['\n'] then first ++ breaks else if breaks.isEmpty then [' '] else breaks

/-! ## Plain scalars -/

/-- Decide whether a plain scalar ends at a character, given the next one. -/
def endsPlain (inFlow : Bool) (c : Char) (next : Option Char) : Bool :=
  isBreak c || isBlank c ||
    (c == ':' && (endsWord next || (inFlow && next.any ",[]\x7b\x7d".toList.contains))) ||
    (inFlow && ",?[]\x7b\x7d".toList.contains c)

/-- The length of the run of a plain scalar at the start of characters. -/
def plainRun (inFlow : Bool) : List Char → Nat
  | [] => 0
  | c :: rest => if endsPlain inFlow c rest.head? then 0 else plainRun inFlow rest + 1

/-- Go over blank lines; nothing is returned when a mark between documents follows. -/
def blankLines : (fuel : Nat) → List Char → Cursor → Option (List Char) × Cursor
  | 0, breaks, c => (some breaks, c)
  | fuel + 1, breaks, c =>
      if c.sees (· == ' ') then blankLines fuel breaks c.step
      else if c.sees isBreak then
        let (found, c) := c.lineBreak
        if c.atDocumentMark then (none, c) else blankLines fuel (breaks ++ found) c
      else (some breaks, c)

/-- Go over the gap behind a run of a plain scalar: what it counts as, and whether it holds the
end of a line. A gap that counts as nothing ends the scalar. -/
def plainGap (c : Cursor) : List Char × Bool × Cursor :=
  let (blanks, c) := c.takeWhile (· == ' ')
  if c.sees isBreak then
    let (first, c) := c.lineBreak
    if c.atDocumentMark then ([], true, c)
    else
      match blankLines c.fuel [] c with
      | (none, c) => ([], true, c)
      | (some breaks, c) => (fold first breaks, true, c)
  else (blanks, false, c)

/-- Read the runs of a plain scalar. -/
def plainFrom (inFlow : Bool) (indent : Int) :
    (fuel : Nat) → (read gap : List Char) → (crossed : Bool) → Cursor → List Char × Bool × Cursor
  | 0, read, _, crossed, c => (read, crossed, c)
  | fuel + 1, read, gap, crossed, c =>
      let length := plainRun inFlow c.rest
      if c.sees (· == '#') || length == 0 then (read, crossed, c)
      else
        let read := read ++ gap ++ c.rest.take length
        let (gap, crossed, c) := plainGap (c.skip length)
        if gap.isEmpty || c.sees (· == '#') || (!inFlow && c.column < indent) then (read, crossed, c)
        else plainFrom inFlow indent fuel read gap crossed c

/-- Read a plain scalar whose lines are indented by `indent`; a line end behind it is told. -/
def plain (inFlow : Bool) (indent : Int) (c : Cursor) : List Char × Bool × Cursor :=
  plainFrom inFlow indent c.fuel [] [] false c

/-! ## Quoted scalars -/

/-- The character of a simple escape. -/
def escaped? (c : Char) : Option Char :=
  [('0', '\x00'), ('a', '\x07'), ('b', '\x08'), ('t', '\t'), ('\t', '\t'), ('n', '\n'), ('v', '\x0b'),
    ('f', '\x0c'), ('r', '\r'), ('e', '\x1b'), (' ', ' '), ('"', '"'), ('\\', '\\'), ('/', '/'),
    ('N', '\x85'), ('_', '\xa0'), ('L', '\u2028'), ('P', '\u2029')].lookup c

/-- How many hexadecimal digits an escape takes. -/
def escapeLength? (c : Char) : Option Nat := [('x', 2), ('u', 4), ('U', 8)].lookup c

/-- The code point of a number, or that there is none. -/
def codePoint (n : Nat) : Except Refusal CodePoint :=
  match CodePoint.ofValue? n with
  | some p => .ok p
  | none =>
      if n < Nat.pow 2 31 then .error (.unfit (.value (text "chr() arg not in range(0x110000)")))
      else .error (.unfit (.overflow (text "Python int too large to convert to C int")))

/-- Go over line ends within quotes. -/
def quotedBreaks : (fuel : Nat) → List Char → Cursor → Except Refusal (List Char × Cursor)
  | 0, breaks, c => .ok (breaks, c)
  | fuel + 1, breaks, c =>
      if c.atDocumentMark then .error .malformed
      else
        let c := c.dropWhile isBlank
        if c.sees isBreak then
          let (found, c) := c.lineBreak
          quotedBreaks fuel (breaks ++ found) c
        else .ok (breaks, c)

/-- Read an escape whose backslash has been read. -/
def escape (c : Cursor) : Except Refusal (Text × Cursor) :=
  match c.next with
  | none => .error .malformed
  | some ch =>
      match escaped? ch, escapeLength? ch with
      | some p, _ => .ok ([.scalar p], c.step)
      | none, some length => do
          let digits := (c.step.rest.take length).filterMap Digits.hex?
          if digits.length = length then
            pure ([← codePoint (Digits.value 16 digits)], c.step.skip length)
          else .error .malformed
      | none, none =>
          if isBreak ch then do
            let (breaks, c) ← quotedBreaks c.fuel [] c.lineBreak.2
            pure (Text.ofChars breaks, c)
          else .error .malformed

/-- Read the blanks and line ends between two runs within quotes. -/
def quotedGap (c : Cursor) : Except Refusal (Text × Cursor) := do
  let (blanks, c) := c.takeWhile isBlank
  if c.sees isBreak then
    let (first, c) := c.lineBreak
    let (breaks, c) ← quotedBreaks c.fuel [] c
    pure (Text.ofChars (fold first breaks), c)
  else pure (Text.ofChars blanks, c)

/-- Read a quoted scalar behind its first quote. -/
def quotedFrom (double : Bool) : (fuel : Nat) → Text → Cursor → Except Refusal (Text × Cursor)
  | 0, _, _ => .error .malformed
  | fuel + 1, read, c =>
      match c.next with
      | none => .error .malformed
      | some ch =>
          if isBreak ch || isBlank ch then do
            let (gap, c) ← quotedGap c
            quotedFrom double fuel (read ++ gap) c
          else if double then
            if ch = '"' then .ok (read, c.step)
            else if ch = '\\' then do
              let (found, c) ← escape c.step
              quotedFrom double fuel (read ++ found) c
            else quotedFrom double fuel (read ++ [.scalar ch]) c.step
          else if ch = '\'' then
            if c.peek 1 = some '\'' then quotedFrom double fuel (read ++ [.scalar ch]) (c.skip 2)
            else .ok (read, c.step)
          else quotedFrom double fuel (read ++ [.scalar ch]) c.step

/-- Read a quoted scalar. -/
def quoted (double : Bool) (c : Cursor) : Except Refusal (Text × Cursor) :=
  quotedFrom double c.fuel [] c.step

/-! ## Block scalars -/

/-- What the head of a block says: whether the line ends at its end are kept or dropped, and its
indentation within what is around it. -/
structure BlockHead where
  keep : Option Bool
  indent : Option Nat

/-- Read a sign that says what becomes of line ends. -/
def chomping? (c : Cursor) : Option Bool × Cursor :=
  match c.next with
  | some '+' => (some true, c.step)
  | some '-' => (some false, c.step)
  | _ => (none, c)

/-- Read an indentation, which is not zero. -/
def indentation? (c : Cursor) : Except Refusal (Option Nat × Cursor) :=
  match c.next.bind Digits.ascii? with
  | some 0 => .error .malformed
  | some n => .ok (some n, c.step)
  | none => .ok (none, c)

/-- Go over a comment to the end of the line and over that. -/
def restOfLine (c : Cursor) : Except Refusal Cursor :=
  let c := c.dropWhile (· == ' ')
  let c := if c.sees (· == '#') then c.toLineEnd else c
  if endsLine c.next then .ok c.lineBreak.2 else .error .malformed

/-- Read the head of a block. -/
def blockHead (c : Cursor) : Except Refusal (BlockHead × Cursor) := do
  let (keep, c) := chomping? c
  let (indent, c) ← indentation? c
  let (keep, c) := if keep.isSome || indent.isNone then (keep, c) else chomping? c
  if c.sees (· == ' ') || endsLine c.next then pure (⟨keep, indent⟩, ← restOfLine c)
  else .error .malformed

/-- Go over blank lines in front of a block: the line ends and the greatest column. -/
def blockStart : (fuel : Nat) → List Char → Nat → Cursor → List Char × Nat × Cursor
  | 0, breaks, widest, c => (breaks, widest, c)
  | fuel + 1, breaks, widest, c =>
      if c.sees isBreak then
        let (found, c) := c.lineBreak
        blockStart fuel (breaks ++ found) widest c
      else if c.sees (· == ' ') then
        let c := c.step
        blockStart fuel breaks (max widest c.column) c
      else (breaks, widest, c)

/-- Go over blanks up to a column. -/
def toColumn (column : Nat) (c : Cursor) : Cursor :=
  c.skip (min (column - c.column) (c.rest.takeWhile (· == ' ')).length)

/-- Go over blank lines within a block. -/
def blockBreaks (indent : Nat) : (fuel : Nat) → List Char → Cursor → List Char × Cursor
  | 0, breaks, c => (breaks, c)
  | fuel + 1, breaks, c =>
      let c := toColumn indent c
      if c.sees isBreak then
        let (found, c) := c.lineBreak
        blockBreaks indent fuel (breaks ++ found) c
      else (breaks, c)

/-- Read the lines of a block. The result is what has been read, the last line end and the line
ends behind it. -/
def blockLines (folded : Bool) (indent : Nat) : (fuel : Nat) → (read last breaks : List Char) →
    Cursor → List Char × List Char × List Char × Cursor
  | 0, read, last, breaks, c => (read, last, breaks, c)
  | fuel + 1, read, last, breaks, c =>
      if c.column = indent ∧ c.next.isSome then
        let flush := !c.sees isBlank
        let (line, c) := c.takeWhile (!isBreak ·)
        let read := read ++ breaks ++ line
        let (last, c) := c.lineBreak
        let (breaks, c) := blockBreaks indent c.fuel [] c
        if c.column = indent ∧ c.next.isSome then
          if folded && last == ['\n'] && flush && !c.sees isBlank then
            blockLines folded indent fuel (if breaks.isEmpty then read ++ [' '] else read) [] breaks c
          else blockLines folded indent fuel (read ++ last) [] breaks c
        else (read, last, breaks, c)
      else (read, last, breaks, c)

/-- Read a block scalar within an indentation. -/
def block (folded : Bool) (around : Int) (c : Cursor) : Except Refusal (List Char × Cursor) := do
  let (head, c) ← blockHead c.step
  let least := (around + 1).toNat.max 1
  let (breaks, indent, c) :=
    match head.indent with
    | none =>
        let (breaks, widest, c) := blockStart c.fuel [] 0 c
        (breaks, max least widest, c)
    | some n =>
        let indent := least + n - 1
        let (breaks, c) := blockBreaks indent c.fuel [] c
        (breaks, indent, c)
  let (read, last, breaks, c) := blockLines folded indent c.fuel [] [] breaks c
  let ending :=
    match head.keep with
    | some true => last ++ breaks
    | some false => []
    | none => last
  pure (read ++ ending, c)

end Yaml

end Showrunner

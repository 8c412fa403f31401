import Showrunner.Text.Utf8
import Showrunner.Yaml.Scalar

/-!
# Tokens of a YAML document

Indentation is made visible by marks: a block begins where a column is deeper than the one around
it and ends where a column is shallower. A key that is written without a mark of its own is known
only once its colon is seen; until then the place of its mark is remembered. A key that has to be
one, since it begins a line of a block, is missed when its colon does not come.
-/

namespace Showrunner

namespace Yaml

/-- A token. -/
inductive Token
  | version (major : Nat)
  | handle (name resolved : Text)
  | otherDirective
  | documentStart
  | documentEnd
  | blockSequence
  | blockMapping
  | blockEnd
  | flowSequence
  | flowSequenceEnd
  | flowMapping
  | flowMappingEnd
  | entry
  | flowEntry
  | key
  | value
  | alias (name : Text)
  | anchor (name : Text)
  | tag (handle : Option Text) (suffix : Text)
  | scalar (t : Text) (plain : Bool)
deriving DecidableEq, Repr

/-- A place where a key may have begun: how many tokens were before it, and where it stands. -/
structure MaybeKey where
  place : Nat
  required : Bool
  index : Nat
  line : Nat
  column : Nat

/-- The state of a scan. Of each depth of brackets, at most one place is remembered. -/
structure Scan where
  cursor : Cursor
  tokens : Array Token
  depth : Nat
  indent : Int
  indents : List Int
  mayKey : Bool
  keys : List (Nat × MaybeKey)

namespace Scan

/-- The start of a scan. -/
def start (cs : List Char) : Scan := ⟨Cursor.start cs, #[], 0, -1, [], true, []⟩

/-- Add a token. -/
def push (s : Scan) (t : Token) : Scan := { s with tokens := s.tokens.push t }

/-- Put a token in at a place. -/
def putIn (s : Scan) (place : Nat) (t : Token) : Scan :=
  { s with tokens := s.tokens.extract 0 place ++ #[t] ++ s.tokens.extract place s.tokens.size }

/-- Go on by a number of characters. -/
def skip (s : Scan) (n : Nat) : Scan := { s with cursor := s.cursor.skip n }

/-- Decide whether brackets are open. -/
def inFlow (s : Scan) : Bool := 0 < s.depth

/-- Forget the places that cannot be keys any more: a key stands on one line and is not long. -/
def dropStale (s : Scan) : Except Refusal Scan :=
  let isStale (k : MaybeKey) : Bool := k.line != s.cursor.line || k.index + 1024 < s.cursor.index
  if s.keys.any fun (_, k) => isStale k && k.required then .error .malformed
  else .ok { s with keys := s.keys.filter fun (_, k) => !isStale k }

/-- Forget the place at this depth. -/
def dropKey (s : Scan) : Except Refusal Scan :=
  if s.keys.any fun (depth, k) => depth == s.depth && k.required then .error .malformed
  else .ok { s with keys := s.keys.filter (·.1 != s.depth) }

/-- Remember this place as one where a key may begin. -/
def saveKey (s : Scan) : Except Refusal Scan :=
  if s.mayKey then do
    let s ← s.dropKey
    let c := s.cursor
    let required := !s.inFlow && s.indent == c.column
    pure { s with keys := (s.depth, ⟨s.tokens.size, required, c.index, c.line, c.column⟩) :: s.keys }
  else .ok s

/-- Close the blocks that are deeper than a column. -/
def unwind (column : Int) : List Int → Scan → Scan
  | [], s => s
  | outer :: rest, s =>
      if column < s.indent then
        unwind column rest { s.push .blockEnd with indent := outer, indents := rest }
      else s

/-- Close the blocks that are deeper than a column, unless brackets are open. -/
def unwindTo (s : Scan) (column : Int) : Scan := if s.inFlow then s else unwind column s.indents s

/-- Note a deeper column; the answer is whether it is deeper. -/
def deepen (s : Scan) (column : Nat) : Scan × Bool :=
  if s.indent < column then ({ s with indent := column, indents := s.indent :: s.indents }, true)
  else (s, false)

/-- Open a block if this column is deeper. -/
def openBlock (s : Scan) (t : Token) : Scan :=
  match s.deepen s.cursor.column with
  | (s, true) => s.push t
  | (s, false) => s

/-- Go over blanks, comments and line ends in front of a token. -/
def toToken : (fuel : Nat) → Scan → Scan
  | 0, s => s
  | fuel + 1, s =>
      let c := s.cursor.dropWhile (· == ' ')
      let c := if c.sees (· == '#') then c.toLineEnd else c
      if c.sees isBreak then
        toToken fuel { s with cursor := c.lineBreak.2, mayKey := s.mayKey || !s.inFlow }
      else { s with cursor := c }

/-! ## Names, tags and directives -/

/-- Scan a name that is not empty. -/
def nameAt (c : Cursor) : Except Refusal (Text × Cursor) :=
  let (name, c) := c.takeWhile isNameChar
  if name.isEmpty then .error .malformed else .ok (Text.ofChars name, c)

/-- Scan an anchor or an alias whose sign has been read. -/
def anchorAt (c : Cursor) : Except Refusal (Text × Cursor) := do
  let (name, c) ← nameAt c
  if endsWord c.next || c.sees "?:,]\x7d%@\x60".toList.contains then pure (name, c)
  else .error .malformed

/-- Recognise a character of a tag. -/
def isTagChar (c : Char) : Bool :=
  isNameChar c || ";/?:@&=+$,.!~*'()[]%".toList.contains c

/-- The octets of the escapes at the start of characters, and the rest. -/
def escapedOctets : List Char → Except Refusal (List UInt8 × List Char)
  | '%' :: a :: b :: rest =>
      match Digits.hex? a, Digits.hex? b with
      | some high, some low => do
          let (octets, rest) ← escapedOctets rest
          pure (UInt8.ofNat (high * 16 + low) :: octets, rest)
      | _, _ => .error .malformed
  | '%' :: _ => .error .malformed
  | rest => .ok ([], rest)

/-- Put characters in place of the escapes of a tag. -/
def unescape : (fuel : Nat) → List Char → Except Refusal Text
  | 0, _ => .ok []
  | _, [] => .ok []
  | fuel + 1, ch :: rest => do
      if ch = '%' then
        let (octets, rest) ← escapedOctets (ch :: rest)
        match Utf8.decode octets with
        | .ok t => pure (t ++ (← unescape fuel rest))
        | .error _ => .error .malformed
      else pure (.scalar ch :: (← unescape fuel rest))

/-- Scan the part of a tag behind its handle. -/
def suffixAt (c : Cursor) : Except Refusal (Text × Cursor) := do
  let (suffix, c) := c.takeWhile isTagChar
  if suffix.isEmpty then .error .malformed
  pure (← unescape suffix.length suffix, c)

/-- Scan the handle of a tag. -/
def handleAt (c : Cursor) : Except Refusal (Text × Cursor) :=
  if c.sees (· == '!') then
    if c.peek 1 = some ' ' then .ok (text "!", c.step)
    else
      let (name, c) := c.step.takeWhile isNameChar
      if c.sees (· == '!') then .ok (Text.ofChars ('!' :: name ++ ['!']), c.step)
      else .error .malformed
  else .error .malformed

/-- Scan a tag. -/
def tagAt (c : Cursor) : Except Refusal (Token × Cursor) := do
  let (found, c) ←
    if c.peek 1 = some '<' then do
      let (suffix, c) ← suffixAt (c.skip 2)
      if c.sees (· == '>') then pure (Token.tag none suffix, c.step) else .error .malformed
    else if endsWord (c.peek 1) then pure (Token.tag none (text "!"), c.step)
    else do
      let word := c.step.rest.takeWhile fun ch => !(ch == ' ' || isBreak ch)
      let (handle, c) ←
        if word.contains '!' then handleAt c else pure (text "!", c.step)
      let (suffix, c) ← suffixAt c
      pure (Token.tag (some handle) suffix, c)
  if c.sees (· == ' ') || endsLine c.next then pure (found, c) else .error .malformed

/-- Scan a number. -/
def numberAt (c : Cursor) : Except Refusal (Nat × Cursor) :=
  let (digits, c) := c.takeWhile Digits.isAscii
  if digits.isEmpty then .error .malformed else .ok (Digits.natOf digits, c)

/-- Scan a directive. -/
def directiveAt (c : Cursor) : Except Refusal (Token × Cursor) := do
  let (name, c) ← nameAt c.step
  if !(c.sees (· == ' ') || endsLine c.next) then .error .malformed
  let (found, c) ←
    if name = text "YAML" then do
      let (major, c) ← numberAt (c.dropWhile (· == ' '))
      if !c.sees (· == '.') then .error .malformed
      let (_, c) ← numberAt c.step
      if c.sees (· == ' ') || endsLine c.next then pure (Token.version major, c)
      else .error .malformed
    else if name = text "TAG" then do
      let (handle, c) ← handleAt (c.dropWhile (· == ' '))
      if !c.sees (· == ' ') then .error .malformed
      let (resolved, c) ← suffixAt (c.dropWhile (· == ' '))
      if c.sees (· == ' ') || endsLine c.next then pure (Token.handle handle resolved, c)
      else .error .malformed
    else pure (Token.otherDirective, c.toLineEnd)
  pure (found, ← restOfLine c)

/-! ## Tokens -/

/-- Close everything in front of a mark between documents. -/
def closeAll (s : Scan) : Except Refusal Scan := do
  let s ← (s.unwindTo (-1)).dropKey
  pure { s with mayKey := false }

/-- Open brackets. -/
def openFlow (s : Scan) (t : Token) : Except Refusal Scan := do
  let s ← s.saveKey
  pure ({ s with depth := s.depth + 1, mayKey := true }.skip 1 |>.push t)

/-- Close brackets. -/
def closeFlow (s : Scan) (t : Token) : Except Refusal Scan := do
  let s ← s.dropKey
  if s.inFlow then pure ({ s with depth := s.depth - 1, mayKey := false }.skip 1 |>.push t)
  else .error .malformed

/-- Scan a mark of an entry or of a key. -/
def blockMark (s : Scan) (block mark : Token) (mayKey : Bool) : Except Refusal Scan := do
  if !s.inFlow && !s.mayKey then .error .malformed
  let s := if s.inFlow then s else s.openBlock block
  let s ← { s with mayKey := mayKey }.dropKey
  pure ((s.skip 1).push mark)

/-- Scan a colon: what was remembered is a key, or the key is written with a mark of its own. -/
def colon (s : Scan) : Except Refusal Scan := do
  match s.keys.lookup s.depth with
  | some k =>
      let s := { s with keys := s.keys.filter (·.1 != s.depth) }
      let s := s.putIn k.place .key
      let s :=
        if s.inFlow then s
        else
          match s.deepen k.column with
          | (s, true) => s.putIn k.place .blockMapping
          | (s, false) => s
      pure ({ s with mayKey := false }.skip 1 |>.push .value)
  | none =>
      if !s.inFlow && !s.mayKey then .error .malformed
      let s := if s.inFlow then s else s.openBlock .blockMapping
      let s ← { s with mayKey := !s.inFlow }.dropKey
      pure ((s.skip 1).push .value)

/-- Scan a token that may be a key. -/
def keyable (s : Scan) (scan : Cursor → Except Refusal (Token × Cursor)) : Except Refusal Scan := do
  let s ← s.saveKey
  let (t, c) ← scan s.cursor
  pure ({ s with mayKey := false, cursor := c }.push t)

/-- Scan a plain scalar. A line end behind it is one behind which a key may begin. -/
def plainScalar (s : Scan) : Except Refusal Scan := do
  let s ← s.saveKey
  let (t, crossed, c) := plain s.inFlow (s.indent + 1) s.cursor
  pure ({ s with mayKey := crossed, cursor := c }.push (.scalar (Text.ofChars t) true))

/-- Scan a block scalar. -/
def blockScalar (s : Scan) (folded : Bool) : Except Refusal Scan := do
  let s ← { s with mayKey := true }.dropKey
  let (t, c) ← block folded s.indent s.cursor
  pure ({ s with cursor := c }.push (.scalar (Text.ofChars t) false))

/-- Recognise the characters that begin no plain scalar. -/
def isIndicator (c : Char) : Bool := "-?:,[]\x7b\x7d#&*!|>'\"%@\x60".toList.contains c

/-- Decide whether a plain scalar begins with a character, given the next one. -/
def beginsPlain (inFlow : Bool) (c : Char) (next : Option Char) : Bool :=
  !(isIndicator c || isBlank c || isBreak c) ||
    (!endsWord next && (c == '-' || (!inFlow && (c == '?' || c == ':'))))

/-- Scan a token that begins with a character. -/
def tokenAt (s : Scan) (ch : Char) : Except Refusal Scan := do
  let c := s.cursor
  let spaced := endsWord (c.peek 1)
  if ch == '%' && c.column == 0 then do
    let s ← s.closeAll
    let (t, c) ← directiveAt s.cursor
    pure ({ s with cursor := c }.push t)
  else if c.column == 0 && c.atMark '-' then do
    pure (((← s.closeAll).skip 3).push .documentStart)
  else if c.column == 0 && c.atMark '.' then do
    pure (((← s.closeAll).skip 3).push .documentEnd)
  else if ch == '[' then s.openFlow .flowSequence
  else if ch == '\x7b' then s.openFlow .flowMapping
  else if ch == ']' then s.closeFlow .flowSequenceEnd
  else if ch == '\x7d' then s.closeFlow .flowMappingEnd
  else if ch == ',' then do
    pure (((← { s with mayKey := true }.dropKey).skip 1).push .flowEntry)
  else if ch == '-' && spaced then s.blockMark .blockSequence .entry true
  else if ch == '?' && (s.inFlow || spaced) then s.blockMark .blockMapping .key (!s.inFlow)
  else if ch == ':' && (s.inFlow || spaced) then s.colon
  else if ch == '*' then
    s.keyable fun c => do
      let (name, c) ← anchorAt c.step
      pure (.alias name, c)
  else if ch == '&' then
    s.keyable fun c => do
      let (name, c) ← anchorAt c.step
      pure (.anchor name, c)
  else if ch == '!' then s.keyable tagAt
  else if ch == '|' && !s.inFlow then s.blockScalar false
  else if ch == '>' && !s.inFlow then s.blockScalar true
  else if ch == '\'' || ch == '"' then
    s.keyable fun c => do
      let (t, c) ← quoted (ch == '"') c
      pure (.scalar t false, c)
  else if beginsPlain s.inFlow ch (c.peek 1) then s.plainScalar
  else .error .malformed

/-- Scan tokens to the end of the document. -/
def run : (fuel : Nat) → Scan → Except Refusal Scan
  | 0, _ => .error .malformed
  | fuel + 1, s => do
      let s ← (toToken s.cursor.fuel s).dropStale
      match s.cursor.next with
      | none => s.closeAll
      | some ch => do run fuel (← (s.unwindTo s.cursor.column).tokenAt ch)

end Scan

/-- The tokens of a document. -/
def tokensOf (cs : List Char) : Except Refusal (List Token) := do
  if !cs.all mayStand then .error .malformed
  let cs := if cs.head? = some '\uFEFF' then cs.tail else cs
  let s ← Scan.run (cs.length + 1) (Scan.start cs)
  pure s.tokens.toList

end Yaml

end Showrunner

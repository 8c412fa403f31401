import Showrunner.Yaml.Tag
import Showrunner.Yaml.Token

/-!
# Nodes of a YAML document

A document holds one node: a scalar, a sequence or a mapping, each with a tag. An alias is the node
of its anchor. A node that refers to itself cannot be written as a tree; there it is a loop.
-/

namespace Showrunner

namespace Yaml

/-- A node. -/
inductive Node
  | scalar (tag : Tag) (t : Text)
  | sequence (tag : Tag) (items : List Node)
  | mapping (tag : Tag) (entries : List (Node × Node))
  | loop
deriving Repr

namespace Node

/-- The node of nothing. -/
def nothing : Node := .scalar .null []

/-- What is left to read, the nodes of the anchors seen (none while a node is being read), and
the handles of tags. -/
structure Feed where
  tokens : List Token
  anchors : List (Text × Option Node)
  handles : List (Text × Text)

namespace Feed

/-- The next token. -/
def next (f : Feed) : Option Token := f.tokens.head?

/-- Go on by a token. -/
def skip (f : Feed) : Feed := { f with tokens := f.tokens.tail }

/-- Decide whether the next token is one of some. -/
def sees (f : Feed) (ts : List Token) : Bool := f.next.any ts.contains

/-- Go on over a token that has to come. -/
def require (f : Feed) (t : Token) : Except Refusal Feed :=
  if f.next = some t then .ok f.skip else .error .malformed

/-- Announce the node of an anchor. -/
def announce (f : Feed) (anchor : Option Text) : Except Refusal Feed :=
  match anchor with
  | none => .ok f
  | some name =>
      if f.anchors.any (·.1 == name) then .error .malformed
      else .ok { f with anchors := (name, none) :: f.anchors }

/-- Settle the node of an anchor. -/
def settle (f : Feed) (anchor : Option Text) (node : Node) : Feed :=
  match anchor with
  | none => f
  | some name =>
      { f with anchors := f.anchors.map fun (n, old) => (n, if n = name then some node else old) }

end Feed

/-- The handles that every document has. -/
def commonHandles : List (Text × Text) := [(text "!", text "!"), (text "!!", Tag.space)]

/-- The full name of a tag. -/
def tagName (f : Feed) (handle : Option Text) (suffix : Text) : Except Refusal Text :=
  match handle with
  | none => .ok suffix
  | some h =>
      match f.handles.lookup h with
      | some opening => .ok (opening ++ suffix)
      | none => .error .malformed

/-- What stands in front of a node: an anchor and the full name of a tag, in either order. -/
def properties (f : Feed) : Except Refusal (Option Text × Option Text × Feed) := do
  match f.next with
  | some (.anchor name) =>
      let f := f.skip
      match f.next with
      | some (.tag handle suffix) => pure (some name, some (← tagName f handle suffix), f.skip)
      | _ => pure (some name, none, f)
  | some (.tag handle suffix) =>
      let tag ← tagName f handle suffix
      let f := f.skip
      match f.next with
      | some (.anchor name) => pure (some name, some tag, f.skip)
      | _ => pure (none, some tag, f)
  | _ => pure (none, none, f)

/-- The tag that asks for the one that a plain scalar would get. -/
def plainTag : Text := text "!"

/-- The tag of a scalar. -/
def scalarTag (name : Option Text) (t : Text) (plain : Bool) : Tag :=
  match name with
  | none => if plain then Tag.ofPlain t.toChars else .text
  | some n => if n = plainTag then Tag.ofPlain t.toChars else Tag.ofName n

/-- The tag of a sequence or a mapping. -/
def collectionTag (name : Option Text) (usual : Tag) : Tag :=
  match name with
  | none => usual
  | some n => if n = plainTag then usual else Tag.ofName n

mutual

/-- Read a node. Blocks are read only where they may stand; a sequence without an indentation of
its own is read only as a value in a mapping. -/
def read (inBlock unindented : Bool) : (fuel : Nat) → Feed → Except Refusal (Node × Feed)
  | 0, _ => .error .malformed
  | fuel + 1, f =>
      match f.next with
      | some (.alias name) =>
          match f.anchors.lookup name with
          | some (some node) => .ok (node, f.skip)
          | some none => .ok (.loop, f.skip)
          | none => .error .malformed
      | _ => do
          let (anchor, name, f) ← properties f
          let f ← f.announce anchor
          let sequence (items : List Node × Feed) : Node × Feed :=
            let node := Node.sequence (collectionTag name .sequence) items.1
            (node, items.2.settle anchor node)
          let mapping (entries : List (Node × Node) × Feed) : Node × Feed :=
            let node := Node.mapping (collectionTag name .mapping) entries.1
            (node, entries.2.settle anchor node)
          match f.next with
          | some (.scalar t plain) =>
              let node := Node.scalar (scalarTag name t plain) t
              pure (node, f.skip.settle anchor node)
          | some .entry =>
              if unindented then do pure (sequence (← readUnindented fuel f))
              else emptyWith anchor name f
          | some .flowSequence => do pure (sequence (← readFlowItems fuel true f.skip))
          | some .flowMapping => do pure (mapping (← readFlowEntries fuel true f.skip))
          | some .blockSequence =>
              if inBlock then do pure (sequence (← readBlockItems fuel f.skip))
              else emptyWith anchor name f
          | some .blockMapping =>
              if inBlock then do pure (mapping (← readBlockEntries fuel f.skip))
              else emptyWith anchor name f
          | _ => emptyWith anchor name f

/-- A node of which only an anchor or a tag is written. -/
def emptyWith (anchor name : Option Text) (f : Feed) : Except Refusal (Node × Feed) :=
  if anchor.isNone && name.isNone then .error .malformed
  else
    let node := Node.scalar (scalarTag name [] (name.isNone)) []
    .ok (node, f.settle anchor node)

/-- Read a node unless one of some tokens comes. -/
def readUnless (inBlock unindented : Bool) (ends : List Token) :
    (fuel : Nat) → Feed → Except Refusal (Node × Feed)
  | 0, _ => .error .malformed
  | fuel + 1, f => if f.sees ends then .ok (nothing, f) else read inBlock unindented fuel f

/-- Read the items of a block. -/
def readBlockItems : (fuel : Nat) → Feed → Except Refusal (List Node × Feed)
  | 0, _ => .error .malformed
  | fuel + 1, f =>
      if f.sees [.entry] then do
        let (item, f) ← readUnless true false [.entry, .blockEnd] fuel f.skip
        let (items, f) ← readBlockItems fuel f
        pure (item :: items, f)
      else do pure ([], ← f.require .blockEnd)

/-- Read the items of a sequence without an indentation of its own. -/
def readUnindented : (fuel : Nat) → Feed → Except Refusal (List Node × Feed)
  | 0, _ => .error .malformed
  | fuel + 1, f =>
      if f.sees [.entry] then do
        let (item, f) ← readUnless true false [.entry, .key, .value, .blockEnd] fuel f.skip
        let (items, f) ← readUnindented fuel f
        pure (item :: items, f)
      else .ok ([], f)

/-- Read the entries of a block. -/
def readBlockEntries : (fuel : Nat) → Feed → Except Refusal (List (Node × Node) × Feed)
  | 0, _ => .error .malformed
  | fuel + 1, f =>
      if f.sees [.key] then do
        let (key, f) ← readUnless true true [.key, .value, .blockEnd] fuel f.skip
        let (value, f) ←
          if f.sees [.value] then readUnless true true [.key, .value, .blockEnd] fuel f.skip
          else .ok (nothing, f)
        let (entries, f) ← readBlockEntries fuel f
        pure ((key, value) :: entries, f)
      else do pure ([], ← f.require .blockEnd)

/-- Read a key within brackets, whose mark has been read, and its value. -/
def readFlowPair (closing : Token) : (fuel : Nat) → Feed → Except Refusal ((Node × Node) × Feed)
  | 0, _ => .error .malformed
  | fuel + 1, f => do
      let (key, f) ← readUnless false false [.value, .flowEntry, closing] fuel f
      let (value, f) ←
        if f.sees [.value] then readUnless false false [.flowEntry, closing] fuel f.skip
        else .ok (nothing, f)
      pure ((key, value), f)

/-- Read the items within brackets; a comma stands between any two. -/
def readFlowItems : (fuel : Nat) → (first : Bool) → Feed → Except Refusal (List Node × Feed)
  | 0, _, _ => .error .malformed
  | fuel + 1, first, f =>
      if f.sees [.flowSequenceEnd] then .ok ([], f.skip)
      else do
        let f ← if first then .ok f else f.require .flowEntry
        if f.sees [.flowSequenceEnd] then pure ([], f.skip)
        else
          let (item, f) ←
            if f.sees [.key] then do
              let (entry, f) ← readFlowPair .flowSequenceEnd fuel f.skip
              pure (Node.mapping .mapping [entry], f)
            else read false false fuel f
          let (items, f) ← readFlowItems fuel false f
          pure (item :: items, f)

/-- Read the entries within braces; a comma stands between any two, and a value may be missing. -/
def readFlowEntries : (fuel : Nat) → (first : Bool) → Feed →
    Except Refusal (List (Node × Node) × Feed)
  | 0, _, _ => .error .malformed
  | fuel + 1, first, f =>
      if f.sees [.flowMappingEnd] then .ok ([], f.skip)
      else do
        let f ← if first then .ok f else f.require .flowEntry
        if f.sees [.flowMappingEnd] then pure ([], f.skip)
        else
          let (entry, f) ←
            if f.sees [.key] then readFlowPair .flowMappingEnd fuel f.skip
            else do
              let (key, f) ← read false false fuel f
              pure ((key, nothing), f)
          let (entries, f) ← readFlowEntries fuel false f
          pure (entry :: entries, f)

end

/-- Read directives: at most one version, which is 1, and each handle once. -/
def directives : List Token → (version : Bool) → List (Text × Text) →
    Except Refusal (List (Text × Text) × List Token)
  | .version major :: rest, version, handles =>
      if version || major != 1 then .error .malformed else directives rest true handles
  | .handle name resolved :: rest, version, handles =>
      if handles.any (·.1 == name) then .error .malformed
      else directives rest version ((name, resolved) :: handles)
  | .otherDirective :: rest, version, handles => directives rest version handles
  | rest, _, handles => .ok (handles ++ commonHandles, rest)

/-- Recognise a directive. -/
def isDirective : Token → Bool
  | .version _ | .handle _ _ | .otherDirective => true
  | _ => false

/-- Recognise the tokens that end a document without a node. -/
def endsDocument (t : Token) : Bool := isDirective t || t == .documentStart || t == .documentEnd

/-- Go over marks at the end of a document, and see that nothing follows. -/
def requireEnd (tokens : List Token) : Except Refusal Unit :=
  if (tokens.dropWhile (· == .documentEnd)).isEmpty then .ok () else .error .malformed

/-- The node of the only document, if there is one. -/
def ofTokens (tokens : List Token) : Except Refusal (Option Node) := do
  let fuel := 4 * tokens.length + 16
  match tokens with
  | [] => pure none
  | t :: _ =>
      if isDirective t || t == .documentStart then
        let (handles, rest) ← directives tokens false []
        match rest with
        | .documentStart :: rest =>
            if rest.head?.all endsDocument then do
              requireEnd rest
              pure (some nothing)
            else do
              let (node, f) ← read true false fuel ⟨rest, [], handles⟩
              requireEnd f.tokens
              pure (some node)
        | _ => .error .malformed
      else do
        let (node, f) ← read true false fuel ⟨tokens, [], commonHandles⟩
        requireEnd f.tokens
        pure (some node)

end Node

end Yaml

end Showrunner

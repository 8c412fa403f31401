import Showrunner.Text.Quoted

/-!
# Octets as text

A run of octets splits into pieces: characters, and broken runs that begin no character. A
broken run is the longest opening of a character's encoding that goes wrong, or a single octet
that opens nothing, so the split is unique and loses no octet. Three readings of the split are
in use: refuse the first broken run, show each as U+FFFD, or write each of its octets as an
escape.
-/

namespace Showrunner

namespace Utf8

/-- Why a run of octets is broken. -/
inductive Reason
  | start
  | continuation
  | truncated
deriving DecidableEq, Repr

/-- Say why a run of octets is broken. -/
def Reason.message : Reason → String
  | .start => "invalid start byte"
  | .continuation => "invalid continuation byte"
  | .truncated => "unexpected end of data"

/-- A piece of a run of octets is a character or a broken run. -/
inductive Piece
  | char (c : Char)
  | broken (octets : List UInt8) (reason : Reason)
deriving DecidableEq, Repr

/-- Recognise a continuation octet. -/
def isTail (b : UInt8) : Bool := 0x80 ≤ b && b < 0xC0

/-- The second octets that may follow a first octet of a longer encoding. -/
def mayFollow (first second : UInt8) : Bool :=
  isTail second &&
    (if first = 0xE0 then 0xA0 ≤ second
     else if first = 0xED then second < 0xA0
     else if first = 0xF0 then 0x90 ≤ second
     else if first = 0xF4 then second < 0x90
     else true)

/-- The number of octets that a first octet announces; zero if it opens no character. -/
def announced (first : UInt8) : Nat :=
  if first < 0x80 then 1
  else if first < 0xC2 then 0
  else if first < 0xE0 then 2
  else if first < 0xF0 then 3
  else if first < 0xF5 then 4
  else 0

/-- The bits that a continuation octet contributes. -/
def tailBits (b : UInt8) : Nat := b.toNat % 0x40

/-- Take the continuation octets that follow, at most `count` of them. -/
def tails : (count : Nat) → List UInt8 → List UInt8
  | 0, _ => []
  | _, [] => []
  | count + 1, b :: rest => if isTail b then b :: tails count rest else []

/-- Split off the first piece: what it is, and how many of the remaining octets it takes. -/
def first (b : UInt8) (rest : List UInt8) : Piece × Nat :=
  let size := announced b
  if size = 0 then (.broken [b] .start, 0)
  else if size = 1 then (.char (Char.ofNat b.toNat), 0)
  else
    match rest with
    | [] => (.broken [b] .truncated, 0)
    | second :: _ =>
        if !mayFollow b second then (.broken [b] .continuation, 0)
        else
          let more := tails (size - 1) rest
          if more.length = size - 1 then
            let lead := b.toNat % (if size = 2 then 0x20 else if size = 3 then 0x10 else 0x08)
            (.char (Char.ofNat (more.foldl (fun n t => n * 0x40 + tailBits t) lead)), size - 1)
          else
            let reason := if more.length = rest.length then .truncated else .continuation
            (.broken (b :: more) reason, more.length)

/-- Split octets into pieces behind the pieces already found, the latest first. -/
def piecesAfter (found : List Piece) : List UInt8 → List Piece
  | [] => found.reverse
  | b :: rest =>
      let (piece, taken) := first b rest
      piecesAfter (piece :: found) (rest.drop taken)
termination_by octets => octets.length
decreasing_by
  simp only [List.length_drop, List.length_cons]
  omega

/-- Split octets into pieces. -/
def pieces (octets : List UInt8) : List Piece := piecesAfter [] octets

/-- Show each broken run as U+FFFD. -/
def decodeReplacing (octets : List UInt8) : Text :=
  (pieces octets).map fun
    | .char c => .scalar c
    | .broken _ _ => .scalar '\uFFFD'

/-- Write an octet as an escape. -/
def escapeOctet (b : UInt8) : Text := text "\\x" ++ Text.ofChars (Quoted.hex 2 b.toNat)

/-- Write each octet of a broken run as an escape. -/
def decodeEscaping (octets : List UInt8) : Text :=
  (pieces octets).flatMap fun
    | .char c => [.scalar c]
    | .broken bad _ => bad.flatMap escapeOctet

/-- Encode a character. -/
def encodeChar (c : Char) : List UInt8 := String.utf8EncodeChar c

/-- Encode a text, a stray half of a pair as the three octets of its number. -/
def encode (t : Text) : List UInt8 :=
  t.flatMap fun
    | .scalar c => encodeChar c
    | .surrogate n =>
        [0xED, UInt8.ofNat (0xA0 + n.val / 0x40), UInt8.ofNat (0x80 + n.val % 0x40)]

/-- The first broken run, where it starts, and why it is broken. -/
structure Broken where
  octets : List UInt8
  position : Nat
  reason : Reason

/-- Find the first broken run behind a number of octets already passed. -/
def brokenAfter (passed : Nat) : List Piece → Option Broken
  | [] => none
  | .char c :: rest => brokenAfter (passed + (encodeChar c).length) rest
  | .broken octets reason :: _ => some ⟨octets, passed, reason⟩

/-- Say where a text is not encoded as announced. -/
def Broken.message (b : Broken) : Text :=
  let stop := b.position + b.octets.length
  let place :=
    if b.octets.length = 1 then
      text "byte 0x" ++ Text.ofChars (Quoted.hex 2 ((b.octets.headD 0).toNat)) ++
        text " in position " ++ Text.ofNat b.position
    else
      text "bytes in position " ++ Text.ofNat b.position ++ text "-" ++ Text.ofNat (stop - 1)
  text "'utf-8' codec can't decode " ++ place ++ text ": " ++ text b.reason.message

/-- Refuse the first broken run. -/
def decode (octets : List UInt8) : Except Broken Text :=
  let found := pieces octets
  match brokenAfter 0 found with
  | some broken => .error broken
  | none =>
      .ok (found.filterMap fun
        | .char c => some (.scalar c)
        | .broken _ _ => none)

/-- Say where a text holds halves of pairs, which have no encoding. -/
def unencodable? (t : Text) : Option Text :=
  let before := t.takeWhile fun
    | .scalar _ => true
    | .surrogate _ => false
  match t.drop before.length with
  | [] => none
  | p :: rest =>
      let run := rest.takeWhile fun
        | .scalar _ => false
        | .surrogate _ => true
      let place :=
        if run.isEmpty then
          text "character '\\u" ++ Text.ofChars (Quoted.hex 4 p.value) ++ text "' in position " ++
            Text.ofNat before.length
        else
          text "characters in position " ++ Text.ofNat before.length ++ text "-" ++
            Text.ofNat (before.length + run.length)
      some (text "'utf-8' codec can't encode " ++ place ++ text ": surrogates not allowed")

end Utf8

end Showrunner

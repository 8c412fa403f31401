import Showrunner.Json.Read
import Showrunner.Text.Utf8

/-!
# Interchange documents as octets

A document arrives as octets in one of five encodings. A mark in front names the encoding and is
no part of the document; without a mark the zeros among the first octets tell how wide a unit is
and which octet comes first, since a document begins with an ASCII character. Half of a pair that
stands alone is let through in every encoding.
-/

namespace Showrunner

namespace Json

/-- How octets spell code points; wide units come with the high octet first or last. -/
inductive Encoding
  | utf8
  | utf16 (highFirst : Bool)
  | utf32 (highFirst : Bool)
deriving DecidableEq, Repr

/-- The encoding of octets without a mark. -/
def unmarkedEncoding : List UInt8 → Encoding
  | a :: b :: c :: d :: _ =>
      if a = 0 then if b = 0 then .utf32 true else .utf16 true
      else if b = 0 then if c = 0 && d = 0 then .utf32 false else .utf16 false
      else .utf8
  | [a, b] => if a = 0 then .utf16 true else if b = 0 then .utf16 false else .utf8
  | _ => .utf8

/-- The encoding of octets, and the octets behind the mark. -/
def detectEncoding (octets : List UInt8) : Encoding × List UInt8 :=
  if [0x00, 0x00, 0xFE, 0xFF].isPrefixOf octets then (.utf32 true, octets.drop 4)
  else if [0xFF, 0xFE, 0x00, 0x00].isPrefixOf octets then (.utf32 false, octets.drop 4)
  else if [0xFE, 0xFF].isPrefixOf octets then (.utf16 true, octets.drop 2)
  else if [0xFF, 0xFE].isPrefixOf octets then (.utf16 false, octets.drop 2)
  else if [0xEF, 0xBB, 0xBF].isPrefixOf octets then (.utf8, octets.drop 3)
  else (unmarkedEncoding octets, octets)

/-- The number that the octets of a unit spell. -/
def unitValue (highFirst : Bool) (octets : List UInt8) : Nat :=
  (if highFirst then octets else octets.reverse).foldl (fun n octet => n * 0x100 + octet.toNat) 0

/-- Read code points from units of two octets. -/
def points16 (highFirst : Bool) : List UInt8 → Option Text
  | [] => some []
  | a :: b :: rest => do
      let p ← CodePoint.ofValue? (unitValue highFirst [a, b])
      pure (p :: (← points16 highFirst rest))
  | _ => none

/-- Read code points from units of four octets. -/
def points32 (highFirst : Bool) : List UInt8 → Option Text
  | [] => some []
  | a :: b :: c :: d :: rest => do
      let p ← CodePoint.ofValue? (unitValue highFirst [a, b, c, d])
      pure (p :: (← points32 highFirst rest))
  | _ => none

/-- Join the halves of pairs in front of the code points already joined. -/
def joinPair (p : CodePoint) : Text → Text
  | [] => [p]
  | q :: rest =>
      match CodePoint.joinHalves? p q with
      | some c => .scalar c :: rest
      | none => p :: q :: rest

/-- Half of a pair spelt by three octets. -/
def half? (a b c : UInt8) : Option CodePoint :=
  if a = 0xED ∧ 0xA0 ≤ b ∧ b < 0xC0 ∧ Utf8.isTail c then
    CodePoint.ofValue? (0xD000 + Utf8.tailBits b * 0x40 + Utf8.tailBits c)
  else none

/-- Read code points from the pieces of octets. -/
def points8 : List Utf8.Piece → Option Text
  | [] => some []
  | .char c :: rest => (points8 rest).map (.scalar c :: ·)
  | .broken [a] _ :: .broken [b] _ :: .broken [c] _ :: rest => do
      let p ← half? a b c
      pure (p :: (← points8 rest))
  | _ => none

/-- Read the text of a document. -/
def decodeOctets (octets : List UInt8) : Option Text :=
  match detectEncoding octets with
  | (.utf8, octets) => points8 (Utf8.pieces octets)
  | (.utf16 highFirst, octets) => (points16 highFirst octets).map (·.foldr joinPair [])
  | (.utf32 highFirst, octets) => points32 highFirst octets

/-- What octets spell. -/
inductive Spelling
  | value (v : Json)
  | malformed (fault : Malformed) (position : Nat)
  | unreadable

/-- Read a document from octets. -/
def readOctets (limits : Limits) (octets : List UInt8) : Spelling :=
  match decodeOctets octets with
  | none => .unreadable
  | some t =>
      match readAlone limits t with
      | .ok v => .value v
      | .error (.malformed fault left) => .malformed fault (t.length - left)
      | .error (.tooManyDigits _) | .error (.tooDeep _) => .unreadable

end Json

end Showrunner

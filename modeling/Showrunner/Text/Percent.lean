import Showrunner.Text.Digits
import Showrunner.Text.Utf8

/-!
# Percent escapes

An address spells an octet as a percent sign with two hexadecimal digits. A run of escapes is
decoded as one run of octets, in which what begins no character shows as U+FFFD; a percent sign
without two digits stands for itself. Writing escapes every octet outside a given set of
characters.
-/

namespace Showrunner

namespace Percent

/-- The octet that two hexadecimal digits spell. -/
def octet? (high low : CodePoint) : Option UInt8 := do
  let h ← Digits.hex? high.toChar
  let l ← Digits.hex? low.toChar
  pure (UInt8.ofNat (h * 16 + l))

/-- Decode a text behind octets that wait to be joined, the latest first. -/
def decodeAfter (waiting : List UInt8) : Text → Text
  | [] => Utf8.decodeReplacing waiting.reverse
  | p :: rest =>
      let plain := Utf8.decodeReplacing waiting.reverse ++ p :: decodeAfter [] rest
      if p = .scalar '%' then
        match rest with
        | high :: low :: more =>
            match octet? high low with
            | some octet => decodeAfter (octet :: waiting) more
            | none => plain
        | _ => plain
      else plain
termination_by t => t.length
decreasing_by all_goals (simp only [List.length_cons]; omega)

/-- Decode the escapes of a text. -/
def decode (t : Text) : Text := decodeAfter [] t

/-- Write an octet as an escape. -/
def escape (octet : UInt8) : Text :=
  .scalar '%' :: Text.ofChars ((Quoted.hex 2 octet.toNat).map Char.toUpper)

/-- The characters that no address escapes. -/
def isUnreserved (c : Char) : Bool := c.isAlphanum || "_.-~".toList.contains c

/-- Write a text with escapes for every octet that is neither unreserved nor in a given set. -/
def encode (kept : List Char) (t : Text) : Text :=
  (Utf8.encode t).flatMap fun octet =>
    let c := Char.ofNat octet.toNat
    if octet < 0x80 && (isUnreserved c || kept.contains c) then [.scalar c] else escape octet

end Percent

end Showrunner

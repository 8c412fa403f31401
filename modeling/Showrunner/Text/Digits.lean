import Showrunner.Text.Basic

/-!
# Decimal digits

Two classes of digits are in use. Formats admit the ten ASCII digits; numerals in settings and
rules admit the digits of every script. The digits of a script are ten consecutive characters,
so a table of the zeros suffices. A numeral's value is the fold of its digits.
-/

namespace Showrunner

namespace Digits

/-- The value of an ASCII digit. -/
def ascii? (c : Char) : Option Nat :=
  if '0'.toNat ≤ c.toNat ∧ c.toNat ≤ '9'.toNat then some (c.toNat - '0'.toNat) else none

/-- Recognise an ASCII digit. -/
def isAscii (c : Char) : Bool := (ascii? c).isSome

/-- The zeros of the scripts that write numbers in base ten. -/
def zeros : List Nat :=
  [ 0x660, 0x6F0, 0x7C0, 0x966, 0x9E6, 0xA66, 0xAE6, 0xB66,
    0xBE6, 0xC66, 0xCE6, 0xD66, 0xDE6, 0xE50, 0xED0, 0xF20,
    0x1040, 0x1090, 0x17E0, 0x1810, 0x1946, 0x19D0, 0x1A80, 0x1A90,
    0x1B50, 0x1BB0, 0x1C40, 0x1C50, 0xA620, 0xA8D0, 0xA900, 0xA9D0,
    0xA9F0, 0xAA50, 0xABF0, 0xFF10, 0x104A0, 0x10D30, 0x11066, 0x110F0,
    0x11136, 0x111D0, 0x112F0, 0x11450, 0x114D0, 0x11650, 0x116C0, 0x11730,
    0x118E0, 0x11950, 0x11C50, 0x11D50, 0x11DA0, 0x16A60, 0x16AC0, 0x16B50,
    0x1D7CE, 0x1D7D8, 0x1D7E2, 0x1D7EC, 0x1D7F6, 0x1E140, 0x1E2F0, 0x1E950,
    0x1FBF0 ]

/-- The value of a decimal digit of any script. -/
def decimal? (c : Char) : Option Nat :=
  let n := c.toNat
  if n < 0x80 then ascii? c
  else (zeros.find? fun first => first ≤ n && n < first + 10).map (n - ·)

/-- The value of a hexadecimal digit. -/
def hex? (c : Char) : Option Nat :=
  let n := c.toNat
  if 0x30 ≤ n ∧ n ≤ 0x39 then some (n - 0x30)
  else if 0x41 ≤ n ∧ n ≤ 0x46 then some (n - 0x37)
  else if 0x61 ≤ n ∧ n ≤ 0x66 then some (n - 0x57)
  else none

/-- The number that a list of digit values spells in base `base`. -/
def value (base : Nat) (digits : List Nat) : Nat :=
  digits.foldl (fun total digit => total * base + digit) 0

/-- The number that ASCII digits spell; other characters count as zero. -/
def natOf (cs : List Char) : Nat := value 10 (cs.map fun c => (ascii? c).getD 0)

/-- Read a nonempty run of ASCII digits and nothing else. -/
def nat? (cs : List Char) : Option Nat :=
  if cs.isEmpty || !cs.all isAscii then none else some (natOf cs)

/-- Split off the longest opening run of ASCII digits. -/
def span (cs : List Char) : List Char × List Char := (cs.takeWhile isAscii, cs.dropWhile isAscii)

end Digits

end Showrunner

import Showrunner.Text.Basic

/-!
# Webhook test tokens

A token is a run of characters drawn one by one from a fixed alphabet of 36.
-/

namespace Showrunner

namespace Token

/-- The characters of a token. -/
def alphabet : List Char := "0123456789abcdefghijklmnopqrstuvwxyz".toList

/-- The length of a token unless another is asked for. -/
def defaultLength : Nat := 10

/-- The character of a draw. -/
def character (draw : Nat) : Char := (alphabet[draw % 36]?).getD '0'

/-- Make a token of a number of draws. -/
def generate (length : Nat) (draw : Nat → Nat) : Text :=
  (List.range length).map fun i => .scalar (character (draw i))

end Token

end Showrunner

import Showrunner.Json.Basic
import Showrunner.Binary64.Shortest
import Showrunner.Text.Quoted

/-!
# Writing interchange documents

A value is written in ASCII on one line: a blank follows each comma and each colon, and what is
no printable ASCII character is escaped. Numbers are written as the shortest decimals; those that
are not finite have names.
-/

namespace Showrunner

namespace Json

/-- Write a number of sixteen bits as an escape. -/
def escape16 (n : Nat) : List Char := '\\' :: 'u' :: Quoted.hex 4 n

/-- Write one code point of a string. -/
def escapePoint : CodePoint → List Char
  | .surrogate n => escape16 (0xD800 + n.val)
  | .scalar c =>
      if c == '"' then ['\\', '"']
      else if c == '\\' then ['\\', '\\']
      else if c == '\n' then ['\\', 'n']
      else if c == '\r' then ['\\', 'r']
      else if c == '\t' then ['\\', 't']
      else if c == '\x0c' then ['\\', 'f']
      else if c == '\x08' then ['\\', 'b']
      else if 0x20 ≤ c.toNat && c.toNat < 0x7F then [c]
      else if c.toNat < 0x10000 then escape16 c.toNat
      else
        let n := c.toNat - 0x10000
        escape16 (0xD800 + n / 0x400) ++ escape16 (0xDC00 + n % 0x400)

/-- Write a string with its quotes. -/
def writeString (t : Text) : List Char := '"' :: (t.flatMap escapePoint ++ ['"'])

/-- Write a number. -/
def writeFloat : Binary64 → List Char
  | .nan => "NaN".toList
  | .infinity false => "Infinity".toList
  | .infinity true => "-Infinity".toList
  | x => x.write

mutual

/-- Write a value. -/
def write : Json → List Char
  | .null => "null".toList
  | .bool true => "true".toList
  | .bool false => "false".toList
  | .int n => (toString n).toList
  | .float x => writeFloat x
  | .str t => writeString t
  | .arr items => '[' :: (writeItems items ++ [']'])
  | .obj fields => '\x7b' :: (writeFields fields ++ ['\x7d'])

/-- Write the items of an array. -/
def writeItems : List Json → List Char
  | [] => []
  | [v] => write v
  | v :: rest => write v ++ ',' :: ' ' :: writeItems rest

/-- Write the fields of an object. -/
def writeFields : List (Text × Json) → List Char
  | [] => []
  | [(name, v)] => writeString name ++ ':' :: ' ' :: write v
  | (name, v) :: rest => writeString name ++ ':' :: ' ' :: (write v ++ ',' :: ' ' :: writeFields rest)

end

/-- Write a value as a text. -/
def writeText (v : Json) : Text := Text.ofChars (write v)

end Json

end Showrunner

/-
# Text in quotes

Diagnostics put names and texts in double quotes.  A quote and a backslash inside are marked with a
backslash, four control characters have names, and every other character without a glyph of its own
is written by its number in braces.  What is written can be read back by anyone: no two texts have
the same quoted form.
-/
import Envelope.Bytes.Hex
import Envelope.Text.Unprinted

namespace Envelope.Text

/-- A number in lower-case hexadecimal digits, without leading zeros. -/
def hexNumber (n : Nat) : String :=
  String.ofList ((Nat.toDigits 16 n).map Char.toLower)

/-- One character as it stands between quotes. -/
def quotedChar (c : Char) : String :=
  if c = '\x00' then "\\0"
  else if c = '\t' then "\\t"
  else if c = '\n' then "\\n"
  else if c = '\r' then "\\r"
  else if c = '"' then "\\\""
  else if c = '\\' then "\\\\"
  else if c.toNat < 0x20 ∨ isUnprinted c then "\\u\x7b" ++ hexNumber c.toNat ++ "\x7d"
  else c.toString

/-- A text in double quotes. -/
def quoted (s : String) : String :=
  "\"" ++ String.join (s.toList.map quotedChar) ++ "\""

/-- The numbers of a list in square brackets, with commas between them. -/
def bracketed (items : List String) : String :=
  "[" ++ ", ".intercalate items ++ "]"

end Envelope.Text

/-
# Writing JSON

The compact form: no blanks, fields in a fixed order, and in strings only what has to be escaped.
-/
import Envelope.Text.Shortest
import Envelope.Text.Quoted

namespace Envelope.Json

/-- One character inside a string.  Quotes, backslashes and control characters are escaped, nothing
else is. -/
def escapedChar (c : Char) : String :=
  if c = '"' then "\\\""
  else if c = '\\' then "\\\\"
  else if c = '\x08' then "\\b"
  else if c = '\x0c' then "\\f"
  else if c = '\n' then "\\n"
  else if c = '\r' then "\\r"
  else if c = '\t' then "\\t"
  else if c.toNat < 0x20 then
    "\\u00" ++ Bytes.hex [UInt8.ofNat c.toNat]
  else c.toString

/-- A string. -/
def renderString (s : String) : String :=
  "\"" ++ String.join (s.toList.map escapedChar) ++ "\""

/-- A finite number; anything else has no JSON form and is written as null. -/
def renderFloat (x : Float) : String :=
  if x.isFinite then Text.floatText x else "null"

/-- An object of fields that are rendered already. -/
def renderObject (fields : List (String × String)) : String :=
  "\x7b" ++ ",".intercalate (fields.map fun (name, value) => renderString name ++ ":" ++ value) ++
    "\x7d"

end Envelope.Json

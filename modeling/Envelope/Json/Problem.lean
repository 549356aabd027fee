/-
# What can be wrong with a JSON text

A text is read from left to right into a value of a known shape, and the first thing that does not
fit ends the reading.  A `Problem` says what that was.  All ways in which a text is not JSON, or not
this shape at all, are one case, `malformed`: the reader says that it is, not where.
-/
import Envelope.Text.Quoted

namespace Envelope.Json

/-- The value that stood where another kind was wanted. -/
inductive Found where
  /-- A whole number that needs no exponent and fits into 64 bits. -/
  | integer (i : Int)
  /-- Any other number, as its shortest text. -/
  | real (text : String)
  | boolean (b : Bool)
  | string (s : String)
  | null
  | sequence
  | map
  deriving DecidableEq, Repr

/-- How a found value is named. -/
def Found.describe : Found → String
  | .integer i => "integer `" ++ toString i ++ "`"
  | .real text => "floating point `" ++ text ++ "`"
  | .boolean b => "boolean `" ++ toString b ++ "`"
  | .string s => "string " ++ Text.quoted s
  | .null => "null"
  | .sequence => "sequence"
  | .map => "map"

/-- The first thing that did not fit. -/
inductive Problem where
  /-- The text is not JSON, or not of a shape that could be named. -/
  | malformed
  | missingField (name : String)
  | duplicateField (name : String)
  | unknownVariant (name : String) (known : List String)
  | invalidType (found : Found) (expected : String)
  | invalidValue (found : Found) (expected : String)
  | invalidLength (length : Nat) (expected : String)
  deriving DecidableEq, Repr

/-- The names a variant could have had: two are joined by a word, more are listed. -/
def alternatives : List String → String
  | [a] => "`" ++ a ++ "`"
  | [a, b] => "`" ++ a ++ "` or `" ++ b ++ "`"
  | names => "one of " ++ ", ".intercalate (names.map fun n => "`" ++ n ++ "`")

/-- The text of a problem. -/
def Problem.message : Problem → String
  | .malformed => "syntax"
  | .missingField name => "missing field `" ++ name ++ "`"
  | .duplicateField name => "duplicate field `" ++ name ++ "`"
  | .unknownVariant name known =>
    "unknown variant `" ++ name ++ "`, expected " ++ alternatives known
  | .invalidType found expected => "invalid type: " ++ found.describe ++ ", expected " ++ expected
  | .invalidValue found expected =>
    "invalid value: " ++ found.describe ++ ", expected " ++ expected
  | .invalidLength length expected =>
    "invalid length " ++ toString length ++ ", expected " ++ expected

end Envelope.Json

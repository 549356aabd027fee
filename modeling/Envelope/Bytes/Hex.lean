/-
# Bytes as hexadecimal text

Two digits for each byte, in lower case, high digit first.  Diagnostics show long byte strings with
the middle left out (`elided`): of more than 32 bytes only the first and the last 16 are written.
-/
import Envelope.Bytes

namespace Envelope.Bytes

/-- The lower-case hexadecimal digit of a number below sixteen. -/
def hexDigit (n : Nat) : Char :=
  if n < 10 then Char.ofNat ('0'.toNat + n) else Char.ofNat ('a'.toNat + (n - 10))

/-- Two lower-case hexadecimal digits for each byte. -/
def hex (bs : Bytes) : String :=
  String.ofList (bs.flatMap fun b => [hexDigit (b.toNat / 16), hexDigit (b.toNat % 16)])

/-- The value of a hexadecimal digit of either case. -/
def digitValue? (c : Char) : Option Nat :=
  if '0' ≤ c ∧ c ≤ '9' then some (c.toNat - '0'.toNat)
  else if 'a' ≤ c ∧ c ≤ 'f' then some (c.toNat - 'a'.toNat + 10)
  else if 'A' ≤ c ∧ c ≤ 'F' then some (c.toNat - 'A'.toNat + 10)
  else none

/-- The bytes that a text of hexadecimal digits writes; `none` at any other character and at an odd
number of digits. -/
def ofHex? : List Char → Option Bytes
  | [] => some []
  | [_] => none
  | high :: low :: rest => do
    let h ← digitValue? high
    let l ← digitValue? low
    return UInt8.ofNat (16 * h + l) :: (← ofHex? rest)

/-- The number of bytes kept at each end of an elided text. -/
def keptAtEachEnd : Nat := 16

/-- **Long strings are elided in the middle.**  Up to 32 bytes are written in full, more as the two
ends and the length. -/
def elided (bs : Bytes) : String :=
  if bs.length ≤ 2 * keptAtEachEnd then hex bs
  else
    hex (bs.take keptAtEachEnd) ++ ".." ++ hex (bs.drop (bs.length - keptAtEachEnd)) ++
      " (" ++ toString bs.length ++ " bytes)"

end Envelope.Bytes

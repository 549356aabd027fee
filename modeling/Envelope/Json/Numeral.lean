/-
# Numbers in JSON text

A numeral is kept as it is written, digit by digit, because what it denotes depends on who asks: a
part of the text that nobody reads only has to be well formed, while a number that is read may be
too large to be one.

A whole number within 64 bits is exact.  Every other numeral is a double, and its value is *defined*
by the following arithmetic rather than by rounding the decimal once: as many digits as fit into 64
bits make the significand, the point and the digits left over move the exponent, and the significand
is multiplied or divided by a power of ten.  It may therefore differ in the last bit from the double
that is nearest to the decimal.
-/
import Envelope.Text.Shortest
import Envelope.Json.Problem

namespace Envelope.Json

/-- A number as it is written; the digits are numbers below ten. -/
structure Numeral where
  negative : Bool
  whole : List Nat
  fraction : List Nat
  /-- The sign of the exponent (true when negative) and its digits. -/
  exponent : Option (Bool × List Nat)
  /-- Whether a point or an exponent is written. -/
  isReal : Bool
  deriving Repr

namespace Numeral

/-! ## 1. Reading one -/

/-- The digits at the front of a text, and the rest. -/
def digits : List Char → List Nat × List Char
  | [] => ([], [])
  | c :: cs =>
    if c.isDigit then
      let (ds, rest) := digits cs
      ((c.toNat - '0'.toNat) :: ds, rest)
    else ([], c :: cs)

/-- The exponent at the front of a text, if one begins there; `none` if it has no digits. -/
def exponent? : List Char → Option (Option (Bool × List Nat) × List Char)
  | c :: cs =>
    if c = 'e' ∨ c = 'E' then
      let (negative, cs) := match cs with
        | '-' :: cs => (true, cs)
        | '+' :: cs => (false, cs)
        | cs => (false, cs)
      match digits cs with
      | ([], _) => none
      | (ds, rest) => some (some (negative, ds), rest)
    else some (none, c :: cs)
  | [] => some (none, [])

/-- The fraction at the front of a text, if a point stands there; `none` if no digit follows it. -/
def fraction? : List Char → Option (Option (List Nat) × List Char)
  | '.' :: cs =>
    match digits cs with
    | ([], _) => none
    | (ds, rest) => some (some ds, rest)
  | cs => some (none, cs)

/-- **The numeral at the front of a text.**  A leading zero stands alone before the point. -/
def read? (cs : List Char) : Option (Numeral × List Char) := do
  let (negative, cs) := match cs with
    | '-' :: cs => (true, cs)
    | cs => (false, cs)
  let (whole, cs) := digits cs
  if whole = [] ∨ (whole.head? = some 0 ∧ 1 < whole.length) then none
  let (fraction, cs) ← fraction? cs
  let (exponent, cs) ← exponent? cs
  return ({ negative, whole, fraction := fraction.getD [], exponent,
            isReal := fraction.isSome || exponent.isSome }, cs)

/-! ## 2. What it denotes -/

/-- The value of a numeral. -/
inductive Value where
  | integer (i : Int)
  | real (x : Float)

/-- Digits appended to a significand while it stays within 64 bits, and the digits left over. -/
def absorb : (significand : Nat) → List Nat → Nat × List Nat
  | s, [] => (s, [])
  | s, d :: ds => if 10 * s + d < 0x10000000000000000 then absorb (10 * s + d) ds else (s, d :: ds)

/-- A power of ten up to the largest that is finite. -/
def powerOfTen (n : Nat) : Float :=
  Float.ofScientific 1 false n

/-- `x · 10 ^ e`, in steps that are themselves finite; `none` when it is too large. -/
def scale : (fuel : Nat) → (x : Float) → (e : Int) → Option Float
  | 0, x, _ => some x
  | fuel + 1, x, e =>
    if e.natAbs ≤ 308 then
      if 0 ≤ e then
        let y := x * powerOfTen e.natAbs
        if y.isInf then none else some y
      else some (x / powerOfTen e.natAbs)
    else if x == 0 then some x
    else if 0 ≤ e then none
    else scale fuel (x / powerOfTen 308) (e + 308)

/-- The largest exponent that is worked out. -/
def maxExponent : Nat := 0x7fffffff

/-- The magnitude of a numeral that is not a 64-bit integer; `none` when it is too large. -/
def magnitude? (n : Numeral) : Option Float :=
  let (s, wholeLeft) := absorb 0 n.whole
  let (s, fractionLeft) := absorb s n.fraction
  let e : Int := (wholeLeft.length : Int) - ((n.fraction.length : Int) - fractionLeft.length)
  match n.exponent with
  | none => scale 5 (UInt64.ofNat s).toFloat e
  | some (negative, ds) =>
    let written := ds.foldl (fun v d => 10 * v + d) 0
    if maxExponent < written then if s ≠ 0 ∧ !negative then none else some 0
    else scale 5 (UInt64.ofNat s).toFloat (if negative then e - written else e + written)

/-- A double with a sign. -/
def signed (negative : Bool) (x : Float) : Float :=
  if negative then -x else x

/-- **The value of a numeral**; `none` when it is too large for a double.  Minus zero is not an
integer, and neither is a negative number below `-2 ^ 63`. -/
def value? (n : Numeral) : Option Value :=
  let (s, left) := absorb 0 n.whole
  if n.isReal ∨ left ≠ [] then n.magnitude?.map fun x => .real (signed n.negative x)
  else if !n.negative then some (.integer s)
  else if 0 < s ∧ s ≤ 0x8000000000000000 then some (.integer (-s))
  else some (.real (signed true (UInt64.ofNat s).toFloat))

end Numeral

/-- A numeral's value as it is named in a problem. -/
def Numeral.Value.found : Numeral.Value → Found
  | .integer i => .integer i
  | .real x => .real (Text.floatText x)

end Envelope.Json

/-
# The shortest decimal of a floating point number

A double stands for every real number that rounds to it.  Its text is the shortest decimal among
those, and of the shortest ones the nearest.  All arithmetic here is exact, on natural numbers: the
double is taken apart into `m · 2 ^ q`, the interval of reals that round to it is written with
integer ends over one denominator, and grids of one, two, … seventeen digits are tried until a point
of one falls into the interval.

## Contents

1. the parts of a double;
2. the interval and the grids;
3. the layout: where the point stands, and when an exponent is written.
-/

namespace Envelope.Text

/-! ## 1. Parts -/

/-- The sign of a double. -/
def isNegative (x : Float) : Bool :=
  x.toBits.toNat ≥ 1 <<< 63

/-- The significand and the exponent of a finite double: its magnitude is `m · 2 ^ (q - 1075)`. -/
def parts (x : Float) : Nat × Nat :=
  let bits := x.toBits.toNat % (1 <<< 63)
  let exponent := bits / (1 <<< 52)
  let fraction := bits % (1 <<< 52)
  if exponent = 0 then (fraction, 1) else ((1 <<< 52) + fraction, exponent)

/-! ## 2. Digits -/

/-- A decimal: `digits · 10 ^ exponent`. -/
structure Decimal where
  digits : Nat
  exponent : Int
  deriving Repr

/-- Digits without trailing zeros, the exponent raised for each; `fuel` bounds their number. -/
def Decimal.strip : (fuel : Nat) → Decimal → Decimal
  | 0, d => d
  | fuel + 1, d =>
    if d.digits ≠ 0 ∧ d.digits % 10 = 0 then strip fuel ⟨d.digits / 10, d.exponent + 1⟩ else d

/-- The positive reals that round to one double, as numerators over one denominator: the value
itself and the two ends, which belong to the interval when `closed`. -/
structure Interval where
  low : Nat
  value : Nat
  high : Nat
  denominator : Nat
  closed : Bool

/-- The interval of `m · 2 ^ (q - 1075)`.  Below a power of two the neighbour is half as far. -/
def interval (m q : Nat) : Interval :=
  let near := if m = 1 <<< 52 ∧ 1 < q then 1 else 2
  let up := 1 <<< (q - 1075)
  { low := (4 * m - near) * up, value := 4 * m * up, high := (4 * m + 2) * up
    denominator := 4 <<< (1075 - q), closed := m % 2 = 0 }

/-- Whether `n · 10 ^ e` lies in the interval, `10 ^ e` being given as `up / down`. -/
def Interval.holds (i : Interval) (n up down : Nat) : Bool :=
  let point := n * up * i.denominator
  if i.closed then i.low * down ≤ point ∧ point ≤ i.high * down
  else i.low * down < point ∧ point < i.high * down

/-- The point of the grid `10 ^ e` that is in the interval and nearest to its value; of two equally
near ones the even. -/
def Interval.nearest? (i : Interval) (e : Int) : Option Nat :=
  let up := Nat.pow 10 e.toNat
  let down := Nat.pow 10 (-e).toNat
  let step := up * i.denominator
  let scaled := i.value * down
  let below := scaled / step
  let rest := scaled % step
  let goUp := 2 * rest > step ∨ (2 * rest = step ∧ below % 2 = 1)
  let first := if goUp then below + 1 else below
  let second := if goUp then below else below + 1
  if i.holds first up down then some first
  else if i.holds second up down then some second
  else none

/-- The number of digits before the point of `value / denominator`, counted from `10 ^ -400` so that
it is a natural number. -/
def Interval.magnitude (i : Interval) : Nat :=
  (Nat.toDigits 10 (i.value * Nat.pow 10 400 / i.denominator)).length

/-- The shortest decimal from `n` digits on; `fuel` bounds how many more are tried. -/
def Interval.shortestFrom (i : Interval) : (fuel n : Nat) → Decimal
  | 0, _ => ⟨0, 0⟩
  | fuel + 1, n =>
    let e : Int := i.magnitude - 400 - n
    match i.nearest? e with
    | some digits => Decimal.strip 20 ⟨digits, e⟩
    | none => i.shortestFrom fuel (n + 1)

/-- **The shortest decimal of the magnitude of a finite double.**  Seventeen digits always
suffice. -/
def shortest (x : Float) : Decimal :=
  let (m, q) := parts x
  if m = 0 then ⟨0, 0⟩ else (interval m q).shortestFrom 17 1

/-! ## 3. Layout -/

/-- `n` zeros. -/
def zeroDigits (n : Nat) : List Char := List.replicate n '0'

/-- The text of a decimal.  Up to sixteen digits before the point are written out, and up to four
zeros after it; beyond that an exponent follows the digits, and it always has a sign. -/
def Decimal.layout (d : Decimal) : List Char :=
  let digits := Nat.toDigits 10 d.digits
  let point : Int := digits.length + d.exponent
  if 0 ≤ d.exponent ∧ point ≤ 16 then digits ++ zeroDigits d.exponent.toNat ++ ['.', '0']
  else if 0 < point ∧ point ≤ 16 then
    digits.take point.toNat ++ ['.'] ++ digits.drop point.toNat
  else if -5 < point ∧ point ≤ 0 then ['0', '.'] ++ zeroDigits (-point).toNat ++ digits
  else
    digits.take 1 ++ (if digits.length = 1 then [] else '.' :: digits.drop 1) ++
      ['e'] ++ (if 0 < point then ['+'] else []) ++ (toString (point - 1)).toList

/-- The text of a finite double: sign, shortest digits, and always a point or an exponent. -/
def floatText (x : Float) : String :=
  String.ofList ((if isNegative x then ['-'] else []) ++ (shortest x).layout)

end Envelope.Text

/-
# Bytes as polynomials

AES multiplies bytes as polynomials over two elements, modulo `x ^ 8 + x ^ 4 + x ^ 3 + x + 1`.  Only
products with the small constants of the column mixing and with the powers of `x` that enter the key
schedule occur, so one operation is enough: multiplication by `x`, from which the others are sums.
-/
import Envelope.Bytes

namespace Envelope.Aes

/-- Multiplication by `x`: a shift, reduced when the top bit falls out. -/
def twice (b : UInt8) : UInt8 :=
  if b < 0x80 then b <<< 1 else (b <<< 1) ^^^ 0x1b

/-- Multiplication by `x + 1`. -/
def thrice (b : UInt8) : UInt8 :=
  twice b ^^^ b

/-- Multiplication by `x ^ 3 + 1`, one of the four constants that undo the column mixing. -/
def times9 (b : UInt8) : UInt8 :=
  twice (twice (twice b)) ^^^ b

/-- Multiplication by `x ^ 3 + x + 1`. -/
def times11 (b : UInt8) : UInt8 :=
  twice (twice (twice b) ^^^ b) ^^^ b

/-- Multiplication by `x ^ 3 + x ^ 2 + 1`. -/
def times13 (b : UInt8) : UInt8 :=
  twice (twice (twice b ^^^ b)) ^^^ b

/-- Multiplication by `x ^ 3 + x ^ 2 + x`. -/
def times14 (b : UInt8) : UInt8 :=
  twice (twice (twice b ^^^ b) ^^^ b)

end Envelope.Aes

/-
# The Poly1305 authenticator

A message is read as the coefficients of a polynomial, sixteen bytes to a coefficient with a one set
above them, and evaluated at a secret point modulo the prime `2 ^ 130 - 5`.  Numbers are unbounded
here, so each formula is the one of the definition, without limbs or carries.
-/
import Envelope.Bytes

namespace Envelope.Poly1305

/-- The prime modulo which a message is evaluated. -/
def modulus : Nat := (1 <<< 130) - 5

/-- The bits of the first half of a key that the point of evaluation keeps. -/
def clamp (r : Nat) : Nat :=
  r &&& 0x0ffffffc0ffffffc0ffffffc0fffffff

/-- The coefficient of a piece of the message: its number with a one set above it. -/
def coefficient (piece : Bytes) : Nat :=
  Bytes.toNatLE (piece ++ [1])

/-- The polynomial of a message at `r`. -/
def evaluate (r : Nat) (message : Bytes) : Nat :=
  (message.pieces 16).foldl (fun sum piece => (sum + coefficient piece) * r % modulus) 0

/-- **The 16-byte tag of a message under a 32-byte key.** -/
def tag (key message : Bytes) : Bytes :=
  let r := clamp (Bytes.toNatLE (key.take 16))
  Bytes.ofNatLE 16 (evaluate r message + Bytes.toNatLE (key.drop 16))

end Envelope.Poly1305

/-
# Galois/counter mode

The mask is the block cipher in counter mode, and the tag a polynomial over the field of `2 ^ 128`
elements, evaluated at the enciphered zero block.  The nonce has twelve bytes, so that the first
counter block is the nonce followed by the number one.

Elements of the field are numbers whose most significant bit is the coefficient of `x ^ 0`.
-/
import Envelope.Aes
import Envelope.Aead.Keyed

namespace Envelope.Aead.Gcm

/-! ## 1. The field -/

/-- Multiplication by `x`: a shift towards the less significant bits, reduced when one falls out. -/
def timesX (v : Nat) : Nat :=
  if v % 2 = 0 then v / 2 else (v / 2) ^^^ 0xe1000000000000000000000000000000

/-- The sum of the multiples of `v` that the `n` low bits of `y` select, the highest of them
first. -/
def select (y : Nat) : (n v sum : Nat) → Nat
  | 0, _, sum => sum
  | n + 1, v, sum => select y n (timesX v) (if y.testBit n then sum ^^^ v else sum)

/-- The product of two elements. -/
def product (v y : Nat) : Nat :=
  select y 128 v 0

/-- The polynomial with the given blocks as coefficients, evaluated at `point`. -/
def hash (point : Nat) (blocks : List Block) : Nat :=
  blocks.foldl (fun sum b => product (sum ^^^ b.toNat) point) 0

/-! ## 2. The mode -/

/-- The nonce followed by a 32-bit counter, which wraps. -/
def counterBlock (nonce : Bytes) (i : Nat) : Block :=
  .ofBytes (nonce ++ Bytes.ofNatBE 4 i)

/-- The bit lengths of the associated data and of the ciphertext, eight bytes each. -/
def lengths (aad cipher : Bytes) : Block :=
  .ofBytes (Bytes.ofNatBE 8 (8 * aad.length) ++ Bytes.ofNatBE 8 (8 * cipher.length))

/-- The length of the longest message, and of the longest associated data. -/
def longest : Nat := 1 <<< 36

/-- The mode under a key, for one nonce and its associated data. -/
def keyed (key nonce aad : Bytes) : Keyed :=
  let keys := Aes.expandKey key
  let point := (Aes.encipher keys .zero).toNat
  { mask := Aes.keystream keys fun i => counterBlock nonce (i + 2)
    tag := fun _ cipher =>
      Aes.encipher keys (counterBlock nonce 1) ^^^
        .ofNat (hash point (Block.ofMessage aad ++ Block.ofMessage cipher ++ [lengths aad cipher]))
    admits := fun n => n ≤ longest ∧ aad.length ≤ longest }

@[simp] theorem admits_keyed (key nonce aad : Bytes) (n : Nat) :
    (keyed key nonce aad).admits n = true ↔ n ≤ longest ∧ aad.length ≤ longest :=
  decide_eq_true_iff

end Envelope.Aead.Gcm

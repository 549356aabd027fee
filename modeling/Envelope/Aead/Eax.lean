/-
# EAX

Three chained authenticators of one key, told apart by the number in their first block, cover the
nonce, the associated data and the ciphertext; the tag is their exclusive or.  The one of the nonce
is also the first counter block, so a nonce may have any length.
-/
import Envelope.Aes
import Envelope.Aead.Keyed

namespace Envelope.Aead.Eax

/-- Doubling in the field of `2 ^ 128` elements, most significant bit first. -/
def double (x : Block) : Block :=
  .ofNat (if x.toNat < 1 <<< 127 then 2 * x.toNat else (2 * x.toNat) ^^^ 0x87)

/-- The last block of a message of whole blocks is marked with the doubled zero block, a shorter one
is closed with a set bit and marked with that doubled again. -/
def lastBlock (zeroEnciphered : Block) (piece : Bytes) : Block :=
  if piece.length = 16 then .ofBytes piece ^^^ double zeroEnciphered
  else .ofBytes (piece ++ [0x80]) ^^^ double (double zeroEnciphered)

/-- The blocks to be chained: all but the last as they are. -/
def markedBlocks (zeroEnciphered : Block) : List Bytes → List Block
  | [] => [lastBlock zeroEnciphered []]
  | [piece] => [lastBlock zeroEnciphered piece]
  | piece :: more => .ofBytes piece :: markedBlocks zeroEnciphered more

/-- The authenticator of a message under one of the three numbers. -/
def authenticator (keys : Aes.RoundKeys) (number : Nat) (message : Bytes) : Block :=
  let zeroEnciphered := Aes.encipher keys .zero
  let pieces := ((Block.ofNat number).toBytes ++ message : Bytes).pieces 16
  (markedBlocks zeroEnciphered pieces).foldl (fun sum b => Aes.encipher keys (sum ^^^ b)) .zero

/-- The length of the longest message, and of the longest associated data. -/
def longest : Nat := 1 <<< 36

/-- The mode under a key, for one nonce and its associated data. -/
def keyed (key nonce aad : Bytes) : Keyed :=
  let keys := Aes.expandKey key
  let start := authenticator keys 0 nonce
  let ofAad := authenticator keys 1 aad
  { mask := Aes.keystream keys fun i => .ofNat (start.toNat + i)
    tag := fun _ cipher => start ^^^ ofAad ^^^ authenticator keys 2 cipher
    admits := fun n => n ≤ longest ∧ aad.length ≤ longest }

@[simp] theorem admits_keyed (key nonce aad : Bytes) (n : Nat) :
    (keyed key nonce aad).admits n = true ↔ n ≤ longest ∧ aad.length ≤ longest :=
  decide_eq_true_iff

end Envelope.Aead.Eax

/-
# Counter mode with CBC-MAC

The tag is computed over the *plaintext*, and the first block it covers holds the length of the
message.  That is why a message has to be there in full before the first byte of it can be sealed,
and why this mode cannot be used on a stream.  With a nonce of twelve bytes three are left for the
length, which bounds a message to less than sixteen mebibytes.
-/
import Envelope.Aes
import Envelope.Aead.Keyed

namespace Envelope.Aead.Ccm

/-- The bytes left for the length and for the counter. -/
def lengthWidth : Nat := 3

/-- A block of one leading byte, the nonce, and a number in the remaining three bytes. -/
def nonceBlock (lead : UInt8) (nonce : Bytes) (n : Nat) : Block :=
  .ofBytes (lead :: nonce ++ Bytes.ofNatBE lengthWidth n)

/-- The first block: which widths are in use, whether there is associated data, and the length. -/
def firstBlock (nonce aad : Bytes) (n : Nat) : Block :=
  nonceBlock (if aad.isEmpty then 0x3a else 0x7a) nonce n

/-- The length before the associated data: two bytes, or a mark and four or eight. -/
def aadLength (n : Nat) : Bytes :=
  if n < 0xff00 then Bytes.ofNatBE 2 n
  else if n < 0x100000000 then [0xff, 0xfe] ++ Bytes.ofNatBE 4 n
  else [0xff, 0xff] ++ Bytes.ofNatBE 8 n

/-- The blocks of the associated data with its length before it; none if there is no data. -/
def aadBlocks (aad : Bytes) : List Block :=
  if aad.isEmpty then [] else Block.ofMessage (aadLength aad.length ++ aad)

/-- The chained encipherment of blocks, from the zero block on. -/
def chain (keys : Aes.RoundKeys) (blocks : List Block) : Block :=
  blocks.foldl (fun sum b => Aes.encipher keys (sum ^^^ b)) .zero

/-- The length of the longest message.  The associated data has no bound. -/
def longest : Nat := (1 <<< (8 * lengthWidth)) - 1

/-- The mode under a key, for one nonce and its associated data. -/
def keyed (key nonce aad : Bytes) : Keyed :=
  let keys := Aes.expandKey key
  let counterBlock := nonceBlock 0x02 nonce
  { mask := Aes.keystream keys fun i => counterBlock (i + 1)
    tag := fun plain _ =>
      chain keys (firstBlock nonce aad plain.length :: aadBlocks aad ++ Block.ofMessage plain) ^^^
        Aes.encipher keys (counterBlock 0)
    admits := fun n => n ≤ longest }

@[simp] theorem admits_keyed (key nonce aad : Bytes) (n : Nat) :
    (keyed key nonce aad).admits n = true ↔ n ≤ longest :=
  decide_eq_true_iff

end Envelope.Aead.Ccm

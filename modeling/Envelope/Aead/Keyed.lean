/-
# Authenticated encryption of one message

Every authenticated cipher of this library has the same outer shape.  The message is combined with a
mask, byte by byte, and a tag of one block follows it; to open it, the mask is taken off again and
the tag recomputed.  They differ in two functions only: the mask, and what the tag is computed from.
So sealing and opening are written once, over a record of the two, and so are their laws.

What the record leaves free is deliberate: a tag may depend on the plaintext (counter mode with
CBC-MAC), on the ciphertext (all the others), and through the closure on the associated data.

Sealing and opening ask the same question about the length of the message.  Implementations differ
here: where the longest message has `2 ^ 36` bytes, some open a body of up to `2 ^ 36 + 16` bytes
before its tag.  Nothing of such a length was ever sealed, so here opening refuses what sealing
refuses.
-/
import Envelope.Block

namespace Envelope.Aead

/-- A cipher with its key, nonce and associated data already in place. -/
structure Keyed where
  /-- So many bytes to be combined with the message. -/
  mask : Nat → Bytes
  /-- The tag of a message, from its plaintext and its ciphertext. -/
  tag : (plain cipher : Bytes) → Block
  /-- Whether a message of so many bytes is within the bounds of the cipher. -/
  admits : Nat → Bool

namespace Keyed

/-- The message with the mask put on, or taken off. -/
def combine (k : Keyed) (message : Bytes) : Bytes :=
  message.xor (k.mask message.length)

/-- **Sealing**: the masked message and its tag; `none` when the cipher does not admit the
message. -/
def seal? (k : Keyed) (plain : Bytes) : Option Bytes :=
  if k.admits plain.length then
    let cipher := k.combine plain
    some (cipher ++ (k.tag plain cipher).toBytes)
  else none

/-- **Opening**: the message, if the last 16 bytes are the tag of what stands before them. -/
def open? (k : Keyed) (sealed : Bytes) : Option Bytes :=
  let cipher := sealed.take (sealed.length - 16)
  if k.admits cipher.length then
    let plain := k.combine cipher
    if sealed.drop (sealed.length - 16) = (k.tag plain cipher).toBytes then some plain else none
  else none

end Keyed

end Envelope.Aead

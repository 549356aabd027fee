/-
# ChaCha20-Poly1305

The keystream from block one on is the mask; block zero keys the authenticator, which covers the
associated data and the ciphertext, each filled up to whole blocks, and their two lengths.
-/
import Envelope.ChaCha20
import Envelope.Poly1305
import Envelope.Aead.Keyed

namespace Envelope.Aead.ChaChaPoly

/-- What the tag covers. -/
def covered (aad cipher : Bytes) : Bytes :=
  aad ++ aad.fill 16 ++ cipher ++ cipher.fill 16 ++
    Bytes.ofNatLE 8 aad.length ++ Bytes.ofNatLE 8 cipher.length

/-- The length of the longest message.  The associated data has no bound. -/
def longest : Nat := 64 * 0xffffffff - 1

/-- The cipher under a key, for one nonce and its associated data. -/
def keyed (key nonce aad : Bytes) : Keyed :=
  { mask := ChaCha20.keystream key nonce 1
    tag := fun _ cipher =>
      .ofBytes (Poly1305.tag (ChaCha20.keystream key nonce 0 32) (covered aad cipher))
    admits := fun n => n ≤ longest }

@[simp] theorem admits_keyed (key nonce aad : Bytes) (n : Nat) :
    (keyed key nonce aad).admits n = true ↔ n ≤ longest :=
  decide_eq_true_iff

end Envelope.Aead.ChaChaPoly

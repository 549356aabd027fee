/-
# Keyed message authentication

HMAC over SHA-256, the code that protects an authenticated header.  It takes keys of every length: a
key longer than a hash block is hashed first, a shorter one filled up with zeros.
-/
import Envelope.Sha256

namespace Envelope.Hmac

/-- The block width of the hash, to which a key is brought. -/
def hashBlock : Nat := 64

/-- A key brought to the width of a hash block. -/
def normalKey (key : Bytes) : Bytes :=
  let k := if key.length ≤ hashBlock then key else Sha256.digest key
  k ++ Bytes.zeros (hashBlock - k.length)

/-- **The 32-byte code of a message under a key.** -/
def code (key message : Bytes) : Bytes :=
  let k := normalKey key
  Sha256.digest (k.map (· ^^^ 0x5c) ++ Sha256.digest (k.map (· ^^^ 0x36) ++ message))

@[simp] theorem length_code (key message : Bytes) : (code key message).length = 32 := rfl

end Envelope.Hmac

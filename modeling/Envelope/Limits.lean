/-
# The numbers of the format

The widths and bounds that both header layouts, the ciphers and the sealer agree on.  A ciphertext
written by one program is read by another only while these stay what they are, so they stand in one
place and every module takes them from here.
-/

namespace Envelope

/-! ## 1. Headers -/

/-- The first four bytes of an authenticated header, read as a signed number.  A plain header starts
with a length, which is never negative, so the two cannot be confused. -/
def authenticatedMarker : Int := -2

/-- The width of the marker, and of a plain header's total length. -/
def markerWidth : Nat := 4

/-- The longest key name, in bytes of its UTF-8 form. -/
def maxKeyName : Nat := 500

/-- The longest nonce: an authenticated header writes the length in one byte. -/
def maxNonce : Nat := 255

/-- The part of a plain header that is always there: the total length and the nonce length. -/
def plainFixedWidth : Nat := 8

/-- The width of the length that stands before a plain header's key name. -/
def keyNameLengthWidth : Nat := 4

/-- The width of the tag at the end of an authenticated header. -/
def headerTagWidth : Nat := 32

/-- The byte that ends the key name of an authenticated header. -/
def keyNameEnd : UInt8 := 0

/-! ## 2. Bodies -/

/-- The chunk size of a configuration that names none. -/
def defaultChunk : Nat := 8 * 1024

/-- The largest chunk size a configuration may ask for. -/
def maxChunk : Nat := 32 * 1024 * 1024

/-- The width of a cipher block. -/
def blockWidth : Nat := 16

/-- The width of the tag after an authenticated body. -/
def bodyTagWidth : Nat := 16

/-- The width of the counter at the end of a counted nonce. -/
def counterWidth : Nat := 8

/-! ## 3. Nonces and keys of each cipher -/

/-- The nonce of Galois/counter mode. -/
def gcmNonce : Nat := 12

/-- The nonce of ChaCha20-Poly1305. -/
def chachaNonce : Nat := 12

/-- The nonce of counter mode with CBC-MAC. -/
def ccmNonce : Nat := 12

/-- The nonce of EAX. -/
def eaxNonce : Nat := 16

/-- The initialisation vector of cipher block chaining. -/
def cbcNonce : Nat := 16

/-- The key of AES-128. -/
def aes128Key : Nat := 16

/-- The key of AES-256. -/
def aes256Key : Nat := 32

/-- The key of ChaCha20. -/
def chachaKey : Nat := 32

end Envelope

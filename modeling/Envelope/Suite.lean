/-
# Cipher suites

A suite is the choice of a cipher by name, as it stands in a configuration.  It determines the
widths of key and nonce and the engine that a message is transformed with.
-/
import Envelope.Engine
import Envelope.Json.Decode
import Envelope.Json.Render

namespace Envelope

/-- The cipher suites. -/
inductive Suite where
  | aes128Gcm
  | aes256Gcm
  | chacha20Poly1305
  | aes128Ccm
  | aes128Eax
  | aes128CbcPkcs7
  | aes256CbcPkcs7
  deriving DecidableEq, Repr

namespace Suite

/-- All suites, in order. -/
def all : List Suite :=
  [.aes128Gcm, .aes256Gcm, .chacha20Poly1305, .aes128Ccm, .aes128Eax, .aes128CbcPkcs7,
   .aes256CbcPkcs7]

/-- An engine of the suite, not keyed. -/
def engine : Suite → Engine
  | .aes128Gcm => .aead (.new .aes128Gcm)
  | .aes256Gcm => .aead (.new .aes256Gcm)
  | .chacha20Poly1305 => .aead (.new .chacha20Poly1305)
  | .aes128Ccm => .aead (.new .aes128Ccm)
  | .aes128Eax => .aead (.new .aes128Eax)
  | .aes128CbcPkcs7 => .cbc (.new .aes128)
  | .aes256CbcPkcs7 => .cbc (.new .aes256)

/-- Whether the suite authenticates bodies. -/
def isAead : Suite → Bool
  | .aes128CbcPkcs7 | .aes256CbcPkcs7 => false
  | _ => true

/-- The length of a nonce. -/
def nonceWidth : Suite → Nat
  | .aes128Gcm | .aes256Gcm => gcmNonce
  | .chacha20Poly1305 => chachaNonce
  | .aes128Ccm => ccmNonce
  | .aes128Eax => eaxNonce
  | .aes128CbcPkcs7 | .aes256CbcPkcs7 => cbcNonce

/-- The length of a key. -/
def keyWidth : Suite → Nat
  | .aes128Gcm | .aes128Ccm | .aes128Eax | .aes128CbcPkcs7 => aes128Key
  | .aes256Gcm | .aes256CbcPkcs7 => aes256Key
  | .chacha20Poly1305 => chachaKey

/-- What the suite is called. -/
def name : Suite → String
  | .aes128Gcm => "AES-128-GCM"
  | .aes256Gcm => "AES-256-GCM"
  | .chacha20Poly1305 => "ChaCha20-Poly1305"
  | .aes128Ccm => "AES-128-CCM"
  | .aes128Eax => "AES-128-EAX"
  | .aes128CbcPkcs7 => "AES-128-CBC/PKCS7"
  | .aes256CbcPkcs7 => "AES-256-CBC/PKCS7"

/-- How diagnostics write the suite. -/
def tag : Suite → String
  | .aes128Gcm => "Aes128Gcm"
  | .aes256Gcm => "Aes256Gcm"
  | .chacha20Poly1305 => "ChaCha20Poly1305"
  | .aes128Ccm => "Aes128Ccm"
  | .aes128Eax => "Aes128Eax"
  | .aes128CbcPkcs7 => "Aes128CbcPkcs7"
  | .aes256CbcPkcs7 => "Aes256CbcPkcs7"

/-- How a configuration writes the suite. -/
def key : Suite → String
  | .aes128Gcm => "aes128-gcm"
  | .aes256Gcm => "aes256-gcm"
  | .chacha20Poly1305 => "chacha20-poly1305"
  | .aes128Ccm => "aes128-ccm"
  | .aes128Eax => "aes128-eax"
  | .aes128CbcPkcs7 => "aes128-cbc-pkcs7"
  | .aes256CbcPkcs7 => "aes256-cbc-pkcs7"

/-- A suite from its name in a configuration. -/
def decode : Json.Document → Json.Reading Suite :=
  Json.decodeVariant (all.map fun s => (s.key, s))

/-- A suite from the text of a JSON value. -/
def ofJson (text : String) : Json.Reading Suite :=
  Json.decodeAll decode text

/-- A suite as JSON. -/
def toJson (s : Suite) : String :=
  Json.renderString s.key

end Suite

end Envelope

/-
# Authenticated encryption, piece by piece

An engine for an authenticated cipher collects the whole message and does its work at the end, in
one stroke.  An update therefore never gives anything out, and while opening nothing is given out
before the tag of the whole body has been found right.

The associated data is handed in with the key; for a sealer it is the header, byte for byte.
-/
import Envelope.Aead.Gcm
import Envelope.Aead.Ccm
import Envelope.Aead.Eax
import Envelope.Aead.ChaChaPoly
import Envelope.Engine.Cbc

namespace Envelope

/-- The authenticated ciphers. -/
inductive AeadCipher where
  | aes128Gcm
  | aes256Gcm
  | chacha20Poly1305
  | aes128Ccm
  | aes128Eax
  deriving DecidableEq, Repr

namespace AeadCipher

/-- What the cipher is called. -/
def name : AeadCipher → String
  | .aes128Gcm => "AES-128-GCM"
  | .aes256Gcm => "AES-256-GCM"
  | .chacha20Poly1305 => "ChaCha20-Poly1305"
  | .aes128Ccm => "AES-128-CCM"
  | .aes128Eax => "AES-128-EAX"

/-- How diagnostics write the cipher. -/
def tag : AeadCipher → String
  | .aes128Gcm => "Aes128Gcm"
  | .aes256Gcm => "Aes256Gcm"
  | .chacha20Poly1305 => "ChaCha20Poly1305"
  | .aes128Ccm => "Aes128Ccm"
  | .aes128Eax => "Aes128Eax"

/-- The length of a nonce. -/
def nonceWidth : AeadCipher → Nat
  | .aes128Gcm | .aes256Gcm => gcmNonce
  | .chacha20Poly1305 => chachaNonce
  | .aes128Ccm => ccmNonce
  | .aes128Eax => eaxNonce

/-- The length of a key. -/
def keyWidth : AeadCipher → Nat
  | .aes128Gcm | .aes128Ccm | .aes128Eax => aes128Key
  | .aes256Gcm => aes256Key
  | .chacha20Poly1305 => chachaKey

/-- The cipher for one message. -/
def keyed : AeadCipher → (key nonce aad : Bytes) → Aead.Keyed
  | .aes128Gcm | .aes256Gcm => Aead.Gcm.keyed
  | .chacha20Poly1305 => Aead.ChaChaPoly.keyed
  | .aes128Ccm => Aead.Ccm.keyed
  | .aes128Eax => Aead.Eax.keyed

/-- Whether a message can be sealed without its length being known in advance. -/
def streams : AeadCipher → Bool
  | .aes128Ccm => false
  | _ => true

end AeadCipher

namespace Aead

/-- An engine that has been keyed, with what it has collected. -/
structure State where
  direction : Direction
  key : Bytes
  nonce : Bytes
  aad : Bytes
  collected : Bytes
  deriving DecidableEq

/-- The collected message sealed, or the collected body opened. -/
def State.transform (cipher : AeadCipher) (s : State) : Except EngineError Bytes :=
  let keyed := cipher.keyed s.key s.nonce s.aad
  match s.direction with
  | .encrypt =>
    match keyed.seal? s.collected with
    | some body => .ok body
    | none => .error (.refused "AEAD seal failed")
  | .decrypt =>
    if s.collected.length < bodyTagWidth then
      .error (.invalidCiphertextLength s.collected.length)
    else
      match keyed.open? s.collected with
      | some plain => .ok plain
      | none => .error .tagMismatch

end Aead

/-- An engine for an authenticated cipher; no state before it is keyed and after it has finished. -/
structure AeadEngine where
  cipher : AeadCipher
  state : Option Aead.State
  deriving DecidableEq

namespace AeadEngine

/-- An engine that has not been keyed. -/
def new (cipher : AeadCipher) : AeadEngine := ⟨cipher, none⟩

/-- The number of bytes collected. -/
def collected (e : AeadEngine) : Nat :=
  (e.state.map (·.collected.length)).getD 0

/-- Whether the engine is opening. -/
def decrypts (e : AeadEngine) : Bool :=
  e.state.any (·.direction = .decrypt)

/-- Keying for one message.  The nonce is looked at first, then the key; an engine that refuses
keeps the state it had. -/
def init (direction : Direction) (key nonce aad : Bytes) : EStateM EngineError AeadEngine Unit :=
  fun e =>
    if nonce.length ≠ e.cipher.nonceWidth then
      .error (.invalidNonceLength e.cipher.nonceWidth nonce.length) e
    else if key.length ≠ e.cipher.keyWidth then
      .error (.invalidKeyLength [e.cipher.keyWidth] key.length) e
    else .ok () { e with state := some { direction, key, nonce, aad, collected := [] } }

/-- What comes out of an update of `n` bytes and a finish together. -/
def maxOutput (e : AeadEngine) (n : Nat) : Nat :=
  let total := e.collected + n
  if e.decrypts then total - bodyTagWidth else total + bodyTagWidth

/-- Taking in a piece of the message, which gives nothing out. -/
def update (input : Bytes) : EStateM EngineError AeadEngine Bytes := fun e =>
  match e.state with
  | none => .error .notInitialized e
  | some s => .ok [] { e with state := some { s with collected := s.collected ++ input } }

/-- **The end of the message.**  Whatever comes of it, the engine has to be keyed again. -/
def finish (room : Nat) : EStateM EngineError AeadEngine Bytes := fun e =>
  match e.state with
  | none => .error .notInitialized e
  | some s =>
    match s.transform e.cipher with
    | .error err => .error err { e with state := none }
    | .ok out =>
      if room < out.length then .error (.outputTooSmall out.length room) { e with state := none }
      else .ok out { e with state := none }

/-- What diagnostics show of an engine. -/
def describe (e : AeadEngine) : String :=
  "AeadEngine \x7b algorithm: " ++ e.cipher.tag ++ ", initialized: " ++ toString e.state.isSome ++
    ", buffered: " ++ toString e.collected ++ " \x7d"

end AeadEngine

end Envelope

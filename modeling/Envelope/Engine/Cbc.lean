/-
# Cipher block chaining, piece by piece

The body is padded to whole blocks and each block is combined with the enciphered one before it.  An
engine takes the message in pieces of any length and gives out blocks as soon as it can:
enciphering, every complete block; deciphering, every complete block but the last one seen, because
that one may be the padding.  What is left waits as `pending`.

An update that is offered too little room fails *after* it has taken its input in: the input stays
pending, and a caller that repeats the call would feed it twice.
-/
import Envelope.Aes
import Envelope.Error
import Envelope.Padding

namespace Envelope

/-- Which way an engine transforms. -/
inductive Direction where
  | encrypt
  | decrypt
  deriving DecidableEq, Repr

/-- How a direction is named. -/
def Direction.name : Direction → String
  | .encrypt => "encrypt"
  | .decrypt => "decrypt"

namespace Cbc

/-! ## 1. The chain -/

/-- Blocks enciphered one after the other, and the last of them, to which the next will be
chained. -/
def chainEncrypt (keys : Aes.RoundKeys) : (previous : Block) → List Block → List Block × Block
  | previous, [] => ([], previous)
  | previous, b :: bs =>
    let c := Aes.encipher keys (b ^^^ previous)
    let (cs, last) := chainEncrypt keys c bs
    (c :: cs, last)

/-- Blocks deciphered one after the other, and the last one taken in. -/
def chainDecrypt (keys : Aes.RoundKeys) : (previous : Block) → List Block → List Block × Block
  | previous, [] => ([], previous)
  | previous, c :: cs =>
    let b := Aes.decipher keys c ^^^ previous
    let (bs, last) := chainDecrypt keys c cs
    (b :: bs, last)

/-- The bytes of blocks in order. -/
def bytesOf (blocks : List Block) : Bytes :=
  blocks.flatMap Block.toBytes

/-! ## 2. The engine -/

/-- The two key widths. -/
inductive KeyWidth where
  | aes128
  | aes256
  deriving DecidableEq, Repr

/-- The number of bytes of a key. -/
def KeyWidth.bytes : KeyWidth → Nat
  | .aes128 => aes128Key
  | .aes256 => aes256Key

/-- An engine that has been keyed. -/
structure State where
  direction : Direction
  keys : Aes.RoundKeys
  /-- What the next block is chained to. -/
  previous : Block
  pending : Bytes
  deriving DecidableEq

/-- Blocks transformed in the direction of the engine, and what the next one is chained to. -/
def State.chain (s : State) (blocks : List Block) : List Block × Block :=
  match s.direction with
  | .encrypt => chainEncrypt s.keys s.previous blocks
  | .decrypt => chainDecrypt s.keys s.previous blocks

/-- The number of pending bytes that can be given out, out of `n`. -/
def ready (direction : Direction) (n : Nat) : Nat :=
  match direction with
  | .encrypt => n / blockWidth * blockWidth
  | .decrypt => (n - 1) / blockWidth * blockWidth

end Cbc

/-- An engine for cipher block chaining; no state before it is keyed and after it has finished. -/
structure CbcEngine where
  width : Cbc.KeyWidth
  state : Option Cbc.State
  deriving DecidableEq

namespace CbcEngine

/-- An engine that has not been keyed. -/
def new (width : Cbc.KeyWidth) : CbcEngine := ⟨width, none⟩

/-- What the engine is called. -/
def algorithm (e : CbcEngine) : String :=
  match e.width with
  | .aes128 => "AES-128-CBC/PKCS7"
  | .aes256 => "AES-256-CBC/PKCS7"

/-- The number of pending bytes. -/
def pending (e : CbcEngine) : Nat :=
  (e.state.map (·.pending.length)).getD 0

/-- Whether the engine is deciphering. -/
def decrypts (e : CbcEngine) : Bool :=
  e.state.any (·.direction = .decrypt)

/-- Keying for one message.  The key is looked at first, then the nonce; an engine that refuses
keeps the state it had. -/
def init (direction : Direction) (key nonce : Bytes) : EStateM EngineError CbcEngine Unit :=
  fun e =>
    if key.length ≠ e.width.bytes then
      .error (.invalidKeyLength [e.width.bytes] key.length) e
    else if nonce.length ≠ cbcNonce then
      .error (.invalidNonceLength cbcNonce nonce.length) e
    else
      let keyed : Cbc.State :=
        { direction, keys := Aes.expandKey key, previous := .ofBytes nonce, pending := [] }
      .ok () { e with state := some keyed }

/-- No more than this comes out of an update of `n` bytes and a finish together. -/
def maxOutput (e : CbcEngine) (n : Nat) : Nat :=
  let total := e.pending + n
  if e.decrypts then total else total / blockWidth * blockWidth + blockWidth

/-- No more than this comes out of an update of `n` bytes while at most one block is pending. -/
def updateOutput (n : Nat) : Nat :=
  (n / blockWidth + 1) * blockWidth

/-- What a finish needs room for. -/
def finishOutput (e : CbcEngine) : Nat :=
  if e.decrypts then e.pending else blockWidth

/-- **Taking in a piece of the message.**  The piece is pending before the room is looked at. -/
def update (input : Bytes) (room : Nat) : EStateM EngineError CbcEngine Bytes := fun e =>
  match e.state with
  | none => .error .notInitialized e
  | some s =>
    let pending := s.pending ++ input
    let n := Cbc.ready s.direction pending.length
    if n = 0 then .ok [] { e with state := some { s with pending := pending } }
    else if room < n then
      .error (.outputTooSmall n room) { e with state := some { s with pending := pending } }
    else
      let (blocks, previous) := s.chain (Block.ofMessage (pending.take n))
      let after : Cbc.State := { s with previous := previous, pending := pending.drop n }
      .ok (Cbc.bytesOf blocks) { e with state := some after }

/-- The last block of a message: what is pending and its padding, enciphered. -/
def lastEncrypted (s : Cbc.State) (room : Nat) : Except EngineError Bytes :=
  if blockWidth ≤ s.pending.length then .error (.overfull s.pending.length)
  else
    let padded := s.pending ++ Padding.after s.pending.length
    if room < blockWidth then .error (.outputTooSmall blockWidth room)
    else .ok (Cbc.bytesOf (s.chain (Block.ofMessage padded)).1)

/-- The last block of a body, deciphered, without its padding. -/
def lastDecrypted (s : Cbc.State) (room : Nat) : Except EngineError Bytes :=
  if s.pending.length ≠ blockWidth then .error (.invalidCiphertextLength s.pending.length)
  else
    match Padding.strip? (Cbc.bytesOf (s.chain (Block.ofMessage s.pending)).1) with
    | none => .error .badPadding
    | some plain =>
      if room < plain.length then .error (.outputTooSmall plain.length room) else .ok plain

/-- **The end of the message.**  Whatever comes of it, the engine has to be keyed again. -/
def finish (room : Nat) : EStateM EngineError CbcEngine Bytes := fun e =>
  match e.state with
  | none => .error .notInitialized e
  | some s =>
    let result := match s.direction with
      | .encrypt => lastEncrypted s room
      | .decrypt => lastDecrypted s room
    match result with
    | .ok out => .ok out { e with state := none }
    | .error err => .error err { e with state := none }

/-- What diagnostics show of an engine. -/
def describe (e : CbcEngine) : String :=
  let size := match e.width with
    | .aes128 => "Aes128"
    | .aes256 => "Aes256"
  "CbcEngine \x7b size: " ++ size ++ ", initialized: " ++ toString e.state.isSome ++
    ", pending: " ++ toString e.pending ++ " \x7d"

end CbcEngine

end Envelope

/-
# Engines

An engine transforms the body of one message.  It is keyed, takes the message in pieces, and gives
out the rest at the end; after that it has to be keyed again.  The two kinds differ in what they do
with associated data and in when they give out what, and agree in how they are used, which is all
that the rest of this library sees of them.

The caller says how much room it has for what comes out of a call.  `maxOutput`, `updateOutput` and
`finishOutput` tell in advance how much is enough.
-/
import Envelope.Engine.Aead
import Envelope.Key

namespace Envelope

/-- An engine of either kind. -/
inductive Engine where
  | aead (e : AeadEngine)
  | cbc (e : CbcEngine)
  deriving DecidableEq

namespace Engine

/-- A computation on one kind of engine as one on engines. -/
def lift {σ ε α : Type} (wrap : σ → Engine) (call : EStateM ε σ α) (e : σ) :
    EStateM.Result ε Engine α :=
  match call e with
  | .ok a e => .ok a (wrap e)
  | .error err e => .error err (wrap e)

/-! ## 1. What an engine is -/

/-- What the engine is called. -/
def algorithm : Engine → String
  | .aead e => e.cipher.name
  | .cbc e => e.algorithm

/-- The length of a nonce. -/
def nonceWidth : Engine → Nat
  | .aead e => e.cipher.nonceWidth
  | .cbc _ => cbcNonce

/-- Whether the engine authenticates, and takes associated data. -/
def isAead : Engine → Bool
  | .aead _ => true
  | .cbc _ => false

/-- Whether a message can be fed without its length being known in advance. -/
def streams : Engine → Bool
  | .aead e => e.cipher.streams
  | .cbc _ => true

/-- What diagnostics show of an engine. -/
def describe : Engine → String
  | .aead e => e.describe
  | .cbc e => e.describe

/-! ## 2. How much room is enough -/

/-- For an update of `n` bytes and a finish together. -/
def maxOutput (n : Nat) : Engine → Nat
  | .aead e => e.maxOutput n
  | .cbc e => e.maxOutput n

/-- For one update of `n` bytes. -/
def updateOutput (n : Nat) : Engine → Nat
  | .aead _ => 0
  | .cbc _ => CbcEngine.updateOutput n

/-- For a finish, after what has been fed. -/
def finishOutput : Engine → Nat
  | .aead e => e.maxOutput 0
  | .cbc e => e.finishOutput

/-! ## 3. Calls -/

/-- Keying for one message.  Only an authenticating engine looks at the associated data. -/
def init (direction : Direction) (key : Key) (nonce aad : Bytes) : EStateM EngineError Engine Unit
  | .aead e => lift .aead (AeadEngine.init direction key.bytes nonce aad) e
  | .cbc e => lift .cbc (CbcEngine.init direction key.bytes nonce) e

/-- Taking in a piece of the message. -/
def update (input : Bytes) (room : Nat) : EStateM EngineError Engine Bytes
  | .aead e => lift .aead (AeadEngine.update input) e
  | .cbc e => lift .cbc (CbcEngine.update input room) e

/-- The end of the message. -/
def finish (room : Nat) : EStateM EngineError Engine Bytes
  | .aead e => lift .aead (AeadEngine.finish room) e
  | .cbc e => lift .cbc (CbcEngine.finish room) e

/-! ## 4. One message -/

/-- **Keying for the message behind a header**, which is the associated data.  A key that the engine
cannot use is a failure of the key, not of the engine. -/
def keyFor (direction : Direction) (key : Key) (nonce header : Bytes) :
    EStateM Failure Engine Unit := fun e =>
  match e.init direction key nonce header with
  | .ok () e => .ok () e
  | .error (.invalidKeyLength _ actual) e' =>
    .error (.key (.invalidLength e.algorithm actual)) e'
  | .error err e => .error (.ofEngine err) e

/-- **A whole message at once**, through an engine that has been keyed, into as much room as the
engine asks for. -/
def transform (input : Bytes) : EStateM Failure Engine Bytes := fun e =>
  let room := e.maxOutput input.length
  match e.update input room with
  | .error err e => .error (.ofEngine err) e
  | .ok front e =>
    match e.finish (room - front.length) with
    | .error err e => .error (.ofEngine err) e
    | .ok back e => .ok (front ++ back) e

end Engine

end Envelope

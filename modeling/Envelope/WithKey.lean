/-
# Sealing and opening with a key in hand

Where the key is known there is no name to find it by.  What is sealed this way has a plain header
without a key name; what is opened may have any header, and a name in it is of no account: an
authenticated header is checked against the key at hand.

The engine belongs to the caller, who may use it for one message after the other.  Keying it for a
new message forgets whatever an earlier, abandoned one left in it.
-/
import Envelope.Sealer

namespace Envelope.WithKey

/-- What changes from call to call: the engine, the source of nonces, and for a stream its source
and its writer. -/
structure Desk where
  engine : Engine
  nonces : NonceSource

/-- A desk with a stream. -/
structure StreamDesk extends Desk where
  source : StreamSource
  writer : Writer

/-- A computation at a desk. -/
abbrev AtDesk := EStateM Failure Desk

/-- A computation at a desk with a stream. -/
abbrev AtStream := EStateM Failure StreamDesk

/-! ## 1. Parts -/

/-- A call of the engine. -/
def onEngine {α : Type} (call : EStateM Failure Engine α) : AtDesk α := fun d =>
  match call d.engine with
  | .ok a engine => .ok a { d with engine }
  | .error e engine => .error e { d with engine }

/-- A result that is there already. -/
def result {α : Type} : Except Failure α → AtDesk α
  | .ok a => pure a
  | .error e => throw e

/-- A plain header with the next nonce and without a key name. -/
def newHeader : AtDesk PlainHeader := fun d =>
  match NonceSource.generate d.nonces with
  | .error e nonces => .error e { d with nonces }
  | .ok nonce nonces => result (PlainHeader.new nonce none) { d with nonces }

/-- A computation that does not touch the stream. -/
def atDesk {α : Type} (call : AtDesk α) : AtStream α := fun d =>
  match call d.toDesk with
  | .ok a desk => .ok a { d with toDesk := desk }
  | .error e desk => .error e { d with toDesk := desk }

/-- A reading of a header from the stream, with every name standing for the key. -/
def readHeader (key : Key) : AtStream Header := fun d =>
  match Header.decode (.fixed key) ⟨d.source, []⟩ with
  | .ok h scan => .ok h { d with source := scan.source }
  | .error e scan => .error e { d with source := scan.source }

/-- The stream worked through the engine. -/
def transferring (call : EStateM Failure Transfer Unit) : AtStream Summary := fun d =>
  let stages := ({} : StageTimes).enter .header
  match call { engine := d.engine, source := d.source, writer := d.writer, stages } with
  | .ok () t =>
    .ok t.summary { d with engine := t.engine, source := t.source, writer := t.writer }
  | .error e t => .error e { d with engine := t.engine, source := t.source, writer := t.writer }

/-- A stream is refused when the engine needs the whole message first. -/
def checkStreams : AtDesk Unit := fun d =>
  if d.engine.streams then .ok () d
  else .error (.unsupported (.cannotStream d.engine.algorithm)) d

/-! ## 2. Whole messages -/

/-- **Sealing**: header and body. -/
def encrypt (key : Key) (plain : Bytes) : AtDesk Bytes := do
  let h ← newHeader
  let header := h.encode
  onEngine (Engine.keyFor .encrypt key h.nonce header)
  return header ++ (← onEngine (Engine.transform plain))

/-- **Opening.**  The associated data is the header as it stands in the ciphertext. -/
def decrypt (key : Key) (ciphertext : Bytes) : AtDesk Bytes := do
  let (h, n) ← match Header.ofBytes (.fixed key) ciphertext [] with
    | .ok found _ => pure found
    | .error e _ => throw e
  onEngine (Engine.keyFor .decrypt key h.nonce (ciphertext.take n))
  onEngine (Engine.transform (ciphertext.drop n))

/-! ## 3. Streams

A chunk size of zero would never come to an end of the body; it counts as one.  There is no largest
one: a configuration bounds its chunk size (`maxChunk`), but nothing bounds the one that is given
here, and both calls assume that the buffers for a chunk can be made, as `Transfer.body` does. -/

/-- **Sealing a stream**, in chunks of any size there is memory for. -/
def encryptStream (key : Key) (chunkSize : Nat) : AtStream Summary := do
  atDesk checkStreams
  let h ← atDesk newHeader
  let header := h.encode
  atDesk (onEngine (Engine.keyFor .encrypt key h.nonce header))
  transferring (Transfer.outward header (max chunkSize 1))

/-- **Opening a stream**, in chunks of any size there is memory for. -/
def decryptStream (key : Key) (chunkSize : Nat) : AtStream Summary := do
  atDesk checkStreams
  let h ← readHeader key
  let header := h.encodeWith key
  atDesk (onEngine (Engine.keyFor .decrypt key h.nonce header))
  transferring (Transfer.inward header (max chunkSize 1))

end Envelope.WithKey

/-
# Sealing and opening under named keys

A sealer brings together a resolver, a suite and a configuration.  To seal, it draws a nonce, builds
a header with it and the alias, finds the key for the alias, and transforms the body with the header
as associated data.  To open, it reads the header, finds the key for the name in it, and transforms
the body back, again with the header as associated data.

A sealer keeps nothing between calls: the key is found anew each time, and each call starts with an
engine that was never keyed.  What does change is outside it and is handed through: the source of
nonces, the names asked for, and for a stream its source and its writer.  They are left as a call
leaves them, also when it fails.

## Contents

1. setting up;
2. keys and headers;
3. whole messages;
4. streams.
-/
import Envelope.Config
import Envelope.Header
import Envelope.Nonce
import Envelope.Transfer

namespace Envelope

/-- A resolver, the engine each call starts with, and a configuration. -/
structure Sealer where
  config : Config
  resolver : Resolver
  engine : Engine
  /-- The length of nonce that the source announced when the sealer was set up. -/
  nonceLength : Nat

/-- What changes from call to call: the source of nonces and the names asked for. -/
structure Session where
  nonces : NonceSource
  asked : List String

/-- A session with a stream: what is read and what is written. -/
structure StreamSession extends Session where
  source : StreamSource
  writer : Writer

/-- A computation within a session. -/
abbrev InSession := EStateM Failure Session

/-- A computation within a session with a stream. -/
abbrev InStream := EStateM Failure StreamSession

namespace Session

/-- A computation that only asks. -/
def asking {α : Type} (call : Asking α) : InSession α := fun s =>
  match call s.asked with
  | .ok a asked => .ok a { s with asked }
  | .error e asked => .error e { s with asked }

/-- The next nonce. -/
def nonce : InSession Bytes := fun s =>
  match NonceSource.generate s.nonces with
  | .ok bytes nonces => .ok bytes { s with nonces }
  | .error e nonces => .error e { s with nonces }

/-- A result that is there already. -/
def result {α : Type} : Except Failure α → InSession α
  | .ok a => pure a
  | .error e => throw e

end Session

namespace StreamSession

/-- A computation that does not touch the stream. -/
def inSession {α : Type} (call : InSession α) : InStream α := fun s =>
  match call s.toSession with
  | .ok a session => .ok a { s with toSession := session }
  | .error e session => .error e { s with toSession := session }

/-- A reading of a header from the stream. -/
def scanning {α : Type} (call : Scan StreamSource α) : InStream α := fun s =>
  match call ⟨s.source, s.asked⟩ with
  | .ok a scan => .ok a { s with source := scan.source, asked := scan.asked }
  | .error e scan => .error e { s with source := scan.source, asked := scan.asked }

/-- **The stream worked through an engine**, after the given stages; the summary if it comes
through, and the engine as it is left. -/
def transferring (engine : Engine) (stages : StageTimes) (call : EStateM Failure Transfer Unit) :
    InStream (Summary × Engine) := fun s =>
  match call { engine, source := s.source, writer := s.writer, stages } with
  | .ok () t => .ok (t.summary, t.engine) { s with source := t.source, writer := t.writer }
  | .error e t => .error e { s with source := t.source, writer := t.writer }

end StreamSession

/-- The result of a computation on an engine that is used for nothing else. -/
def Engine.run {α : Type} (e : Engine) (call : EStateM Failure Engine α) :
    Except Failure (α × Engine) :=
  match call e with
  | .ok a e => .ok (a, e)
  | .error err _ => .error err

namespace Sealer

/-! ## 1. Setting up -/

/-- **A sealer around an engine.**  The configuration has to be valid, and the nonces of the source
have to have a length that headers can carry and the engine takes. -/
def new (engine : Engine) (resolver : Resolver) (nonces : NonceSource) (config : Config) :
    Except Failure Sealer := do
  config.validate
  checkNonceLength nonces.length
  if engine.nonceWidth ≠ nonces.length then
    throw (.config (.nonceMismatch engine.algorithm engine.nonceWidth nonces.length))
  return { config, resolver, engine, nonceLength := nonces.length }

/-- A sealer for the suite of a configuration. -/
def ofConfig (config : Config) (resolver : Resolver) (nonces : NonceSource) :
    Except Failure Sealer :=
  match config.suite with
  | some suite => new suite.engine resolver nonces config
  | none => .error (.config .noSuite)

variable (s : Sealer)

/-- What the sealer's cipher is called. -/
def algorithm : String := s.engine.algorithm

/-- What diagnostics show of a sealer. -/
def inspect : String :=
  "CipherBean \x7b config: " ++ s.config.inspect ++ ", algorithm: " ++ Text.quoted s.algorithm ++
    ", nonce_len: " ++ toString s.nonceLength ++ ", .. \x7d"

/-! ## 2. Keys and headers -/

/-- A header with the next nonce and the alias, in the layout of the configuration. -/
def newHeader : InSession Header := do
  let nonce ← Session.nonce
  match s.config.policy with
  | .plain => return .plain (← Session.result (PlainHeader.new nonce (some s.config.keyAlias)))
  | .authenticated =>
    let h ← Session.result (AuthenticatedHeader.new nonce s.config.keyAlias)
    return .authenticated { h with resolver := some s.resolver }

/-- The key for the alias. -/
def aliasKey : InSession Key := Session.asking (s.resolver.key s.config.keyAlias)

/-- The key for a header that was read.  A header without a name, or with an empty one, has none. -/
def keyFor (h : Header) : Asking Key :=
  match h.keyName with
  | some name => if name = "" then throw (.key .missingKeyName) else s.resolver.key name
  | none => throw (.key .missingKeyName)

/-- A stream is refused when the engine needs the whole message first. -/
def checkStreams : Except Failure Unit :=
  if s.engine.streams then .ok () else .error (.unsupported (.needsWholeMessage s.algorithm))

/-- The engine keyed for the body behind a header. -/
def keyedEngine (direction : Direction) (key : Key) (nonce header : Bytes) :
    Except Failure Engine := do
  return (← s.engine.run (Engine.keyFor direction key nonce header)).2

/-! ## 3. Whole messages -/

/-- **Sealing**: header and body. -/
def encrypt (plain : Bytes) : InSession Bytes := do
  let h ← s.newHeader
  let key ← s.aliasKey
  let header := h.encodeWith key
  let engine ← Session.result (s.keyedEngine .encrypt key h.nonce header)
  let (body, _) ← Session.result (engine.run (Engine.transform plain))
  return header ++ body

/-- **Opening.**  The associated data is the header as it stands in the ciphertext. -/
def decrypt (ciphertext : Bytes) : InSession Bytes := do
  let (h, n) ← Session.asking (Header.ofBytes s.resolver ciphertext)
  let key ← Session.asking (s.keyFor h)
  let engine ← Session.result (s.keyedEngine .decrypt key h.nonce (ciphertext.take n))
  let (plain, _) ← Session.result (engine.run (Engine.transform (ciphertext.drop n)))
  return plain

/-! ## 4. Streams -/

/-- The stages a sealing or an opening has been through before the body. -/
def stagesBefore : StageTimes := ({} : StageTimes).enter .header |>.enter .keyResolve

/-- **Sealing a stream.**  Nothing is read or written before the engine is keyed. -/
def encryptStream : InStream Summary := do
  StreamSession.inSession (Session.result s.checkStreams)
  let h ← StreamSession.inSession s.newHeader
  let key ← StreamSession.inSession s.aliasKey
  let header := h.encodeWith key
  let engine ← StreamSession.inSession
    (Session.result (s.keyedEngine .encrypt key h.nonce header))
  return (← StreamSession.transferring engine stagesBefore
    (Transfer.outward header s.config.chunkSize)).1

/-- **Opening a stream.**  The associated data is the header written again under the key that was
found for its name, not the bytes that were read. -/
def decryptStream : InStream Summary := do
  StreamSession.inSession (Session.result s.checkStreams)
  let h ← StreamSession.scanning (Header.decode s.resolver)
  let key ← StreamSession.inSession (Session.asking (s.keyFor h))
  let header := h.encodeWith key
  let engine ← StreamSession.inSession
    (Session.result (s.keyedEngine .decrypt key h.nonce header))
  return (← StreamSession.transferring engine stagesBefore
    (Transfer.inward header s.config.chunkSize)).1

end Sealer

end Envelope

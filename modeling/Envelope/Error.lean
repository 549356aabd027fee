/-
# Why an operation fails

Each layer has its own causes, and each cause one text.  The layers are: the header and its fields,
the key behind a name, the engine that transforms a body, the transports bytes come from and go to,
and the configuration.  `Failure` is their sum; every operation of a sealer fails with exactly one
of these.

Two rules connect the layers.  A body whose tag does not match is an authentication failure, not a
failure of the engine (`Failure.ofEngine`).  A source that ends too early is a malformed header,
while a source that breaks is a failure of the transport, so that a caller can tell bad data from a
bad line.
-/
import Envelope.Json.Problem
import Envelope.Limits

namespace Envelope

/-! ## 1. Headers -/

/-- What is wrong with a header, or with the parts of one that is to be built. -/
inductive HeaderError where
  /-- The source ended before a field was complete. -/
  | truncated (wanted : Nat)
  /-- The total length is negative. -/
  | negativeLength (raw : Int)
  /-- The nonce length is negative, above the bound, or does not fit into the total. -/
  | invalidNonceLength (length : Int)
  /-- The key name's length is negative, above the bound, or contradicts the total. -/
  | invalidKeyNameLength (length : Int)
  /-- The key name is longer than the format allows. -/
  | keyNameTooLong (bound : Nat)
  /-- The key name is not UTF-8. -/
  | invalidKeyName
  /-- An authenticated header needs a key name. -/
  | missingKeyName
  /-- The key name contains the byte that would end it. -/
  | keyNameContainsNul
  /-- The first four bytes are not the marker that was asked for. -/
  | versionMismatch (found : Int)
  /-- More was read since the mark than the source can take back. -/
  | rewindUnsupported (consumed window : Nat)
  deriving DecidableEq, Repr

/-- The text of a header error. -/
def HeaderError.message : HeaderError → String
  | .truncated wanted => s!"header truncated: needed {wanted} more bytes"
  | .negativeLength raw => s!"negative header length: {raw}"
  | .invalidNonceLength length => s!"invalid nonce length: {length}"
  | .invalidKeyNameLength length => s!"invalid key name length: {length}"
  | .keyNameTooLong bound => s!"maximum key length exceeded: {bound} bytes"
  | .invalidKeyName => "key name is not valid UTF-8"
  | .missingKeyName => "key name is required"
  | .keyNameContainsNul => "key name contains a NUL byte"
  | .versionMismatch found => s!"header version mismatch: found tag {found}"
  | .rewindUnsupported consumed window =>
    s!"cannot rewind header source: {consumed} bytes consumed, look-back window is {window}"

/-! ## 2. Keys -/

/-- Why there is no usable key. -/
inductive KeyError where
  /-- Nothing answers to the name. -/
  | notFound (name : String)
  /-- The header names no key. -/
  | missingKeyName
  /-- The key does not have a length that the algorithm takes. -/
  | invalidLength (algorithm : String) (actual : Nat)
  deriving DecidableEq, Repr

/-- The text of a key error. -/
def KeyError.message : KeyError → String
  | .notFound name => s!"key not found: {name}"
  | .missingKeyName => "ciphertext header carries no key name"
  | .invalidLength algorithm actual => s!"invalid key length for {algorithm}: {actual} bytes"

/-! ## 3. Engines -/

/-- Why an engine refuses a call. -/
inductive EngineError where
  | invalidKeyLength (expected : List Nat) (actual : Nat)
  | invalidNonceLength (expected actual : Nat)
  /-- The engine was not keyed, or has finished. -/
  | notInitialized
  /-- No body of this length can have come from the cipher. -/
  | invalidCiphertextLength (length : Nat)
  | badPadding
  | tagMismatch
  /-- The caller offers less room than the engine needs. -/
  | outputTooSmall (need room : Nat)
  /-- The cipher itself refused, for the reason given. -/
  | refused (reason : String)
  /-- Padding was asked for while a whole block or more was pending: no caller that offers the room
  the engine publishes gets here. -/
  | overfull (pending : Nat)
  deriving DecidableEq, Repr

/-- The text of an engine error. -/
def EngineError.message : EngineError → String
  | .invalidKeyLength expected actual =>
    let lengths := Text.bracketed (expected.map toString)
    s!"invalid key length: expected one of {lengths}, actual={actual}"
  | .invalidNonceLength expected actual =>
    s!"invalid nonce length: expected={expected}, actual={actual}"
  | .notInitialized => "cipher engine not initialized"
  | .invalidCiphertextLength length => s!"invalid ciphertext length: {length}"
  | .badPadding => "bad padding"
  | .tagMismatch => "AEAD tag mismatch"
  | .outputTooSmall need room => s!"output buffer too small: need {need}, have {room}"
  | .refused reason => s!"cipher failure: {reason}"
  | .overfull pending => s!"no room for padding: {pending} bytes pending"

/-! ## 4. Transports -/

/-- The kind of a transport failure. -/
inductive TransportKind where
  | connectionReset
  | brokenPipe
  | unexpectedEnd
  | timedOut
  | other
  /-- A writer accepted nothing of what it was offered. -/
  | nothingWritten
  deriving DecidableEq, Repr

/-- A transport failure: its kind and its text. -/
structure TransportError where
  kind : TransportKind
  text : String
  deriving DecidableEq, Repr

/-- The failure of a writer that accepts nothing. -/
def TransportError.writeZero : TransportError :=
  ⟨.nothingWritten, "failed to write whole buffer"⟩

/-! ## 5. Configuration and state -/

/-- Why a configuration is rejected. -/
inductive ConfigError where
  | emptyAlias
  | aliasTooLong
  | aliasContainsNul
  | chunkSize (size : Nat)
  | nonceLength (length : Nat)
  /-- The nonce source does not produce nonces of the length that the engine takes. -/
  | nonceMismatch (algorithm : String) (needed produced : Nat)
  | noSuite
  /-- The text of the configuration does not describe one. -/
  | unreadable (problem : Json.Problem)
  /-- Any other reason a caller gives. -/
  | other (reason : String)
  deriving DecidableEq, Repr

/-- The text of a configuration error. -/
def ConfigError.message : ConfigError → String
  | .emptyAlias => "key alias must not be empty"
  | .aliasTooLong => s!"key alias exceeds {maxKeyName} bytes"
  | .aliasContainsNul => "key alias contains a NUL byte"
  | .chunkSize size => s!"chunk size must be 1..={maxChunk}, got {size}"
  | .nonceLength length => s!"nonce length must be 1..={maxNonce}, got {length}"
  | .nonceMismatch algorithm needed produced =>
    s!"{algorithm} needs a {needed}-byte nonce, nonce source produces {produced}"
  | .noSuite => "no cipher suite configured"
  | .unreadable problem => "bean config: " ++ problem.message
  | .other reason => reason

/-- Why an object cannot do what it is asked for in the state it is in. -/
inductive StateError where
  /-- An authenticated header is to be written, and no resolver is attached to it. -/
  | noResolver
  /-- The last nonce of a counted source was handed out. -/
  | nonceExhausted
  /-- The system has no random bytes, for the reason given. -/
  | noRandomness (reason : String)
  /-- Any other reason a caller gives. -/
  | other (reason : String)
  deriving DecidableEq, Repr

/-- The text of a state error. -/
def StateError.message : StateError → String
  | .noResolver => "no key resolver attached to V2 header"
  | .nonceExhausted => "nonce counter exhausted"
  | .noRandomness reason => s!"system RNG unavailable: {reason}"
  | .other reason => reason

/-- Why a cipher cannot be used for what was asked. -/
inductive UnsupportedError where
  /-- A sealer was asked to stream with a cipher that needs the whole message. -/
  | needsWholeMessage (algorithm : String)
  /-- An engine was given for streaming that cannot. -/
  | cannotStream (algorithm : String)
  /-- Any other reason a caller gives. -/
  | other (reason : String)
  deriving DecidableEq, Repr

/-- The text of a refusal. -/
def UnsupportedError.message : UnsupportedError → String
  | .needsWholeMessage algorithm =>
    s!"{algorithm} needs the message length up front and cannot stream"
  | .cannotStream algorithm => s!"{algorithm} cannot stream"
  | .other reason => reason

/-! ## 6. The sum -/

/-- Which check of integrity failed. -/
inductive AuthenticationError where
  | headerTag
  | bodyTag
  deriving DecidableEq, Repr

/-- The text of an integrity failure. -/
def AuthenticationError.message : AuthenticationError → String
  | .headerTag => "HMAC verification failed"
  | .bodyTag => "AEAD tag mismatch"

/-- Why an operation failed. -/
inductive Failure where
  | encoding (e : HeaderError)
  | authentication (e : AuthenticationError)
  | key (e : KeyError)
  | transport (e : TransportError)
  | cipher (e : EngineError)
  | unsupported (e : UnsupportedError)
  | state (e : StateError)
  | config (e : ConfigError)
  deriving DecidableEq, Repr

namespace Failure

/-- The text of a failure. -/
def message : Failure → String
  | .encoding e => "encoding error: " ++ e.message
  | .authentication e => "authentication error: " ++ e.message
  | .key e => "key error: " ++ e.message
  | .transport e => "stream error: " ++ e.text
  | .cipher e => "cipher error: " ++ e.message
  | .unsupported e => "unsupported operation: " ++ e.message
  | .state e => "invalid state: " ++ e.message
  | .config e => "invalid configuration: " ++ e.message

/-- **A body tag that does not match is an authentication failure**; every other engine error stays
one. -/
def ofEngine : EngineError → Failure
  | .tagMismatch => .authentication .bodyTag
  | e => .cipher e

/-- Whether a check of integrity failed, of the header or of the body. -/
def isAuthentication : Failure → Bool
  | .authentication _ => true
  | _ => false

end Failure

end Envelope

/-
# Authenticated headers

    marker : 4 | key name | 0 | nonce length : 1 | nonce | tag : 32

The marker is a negative number, so that no plain header begins like this.  The key name is
mandatory: the tag is a keyed code of everything before it, under the key the name resolves to.  A
header is read from left to right and each field is judged when it is complete; the resolver is
asked as soon as the name is known, before the nonce is read.

A header carries its resolver, with which it can be encoded again.  Two headers are the same when
they say the same, whatever is attached to them.
-/
import Envelope.Header.Scan
import Envelope.Bytes.Utf8
import Envelope.Hmac

namespace Envelope

/-- A header with a tag. -/
structure AuthenticatedHeader where
  nonce : Bytes
  keyName : String
  resolver : Option Resolver

namespace AuthenticatedHeader

/-- **What a header says**: its nonce and its key name, not what is attached to it. -/
instance : BEq AuthenticatedHeader :=
  ⟨fun a b => a.nonce == b.nonce && a.keyName == b.keyName⟩

/-- The name is there, fits, and does not contain the byte that would end it. -/
def checkKeyName (name : String) : Except Failure Unit :=
  if name.utf8ByteSize = 0 then .error (.encoding .missingKeyName)
  else if maxKeyName < name.utf8ByteSize then .error (.encoding (.keyNameTooLong maxKeyName))
  else if keyNameEnd ∈ Bytes.ofText name then .error (.encoding .keyNameContainsNul)
  else .ok ()

/-- A header of an admissible nonce and key name, without a resolver. -/
def new (nonce : Bytes) (keyName : String) : Except Failure AuthenticatedHeader := do
  checkKeyName keyName
  if maxNonce < nonce.length then throw (.encoding (.invalidNonceLength nonce.length))
  return { nonce, keyName, resolver := none }

/-- The length of the encoded header. -/
def length (h : AuthenticatedHeader) : Nat :=
  markerWidth + h.keyName.utf8ByteSize + 1 + 1 + h.nonce.length + headerTagWidth

/-- What the tag covers. -/
def covered (h : AuthenticatedHeader) : Bytes :=
  Bytes.ofInt32 authenticatedMarker ++ Bytes.ofText h.keyName ++
    keyNameEnd :: UInt8.ofNat h.nonce.length :: h.nonce

/-- **The header under a key.** -/
def encodeWith (h : AuthenticatedHeader) (key : Key) : Bytes :=
  h.covered ++ Hmac.code key.bytes h.covered

/-- The header under the key that its own resolver finds. -/
def encode (h : AuthenticatedHeader) : Asking Bytes := do
  match h.resolver with
  | none => throw (.state .noResolver)
  | some r => return h.encodeWith (← r.key h.keyName)

/-- The tag is the code of what it covers. -/
def checkTag (key : Key) (covered tag : Bytes) : Except Failure Unit :=
  if Hmac.code key.bytes covered = tag then .ok () else .error (.authentication .headerTag)

/-! ## Reading -/

/-- What the beginning of a source turns out to be. -/
inductive Probe where
  | parsed (h : AuthenticatedHeader)
  /-- Something else, with the number in place of the marker. -/
  | foreign (tag : Int)

variable {σ : Type} [Source σ]

/-- The bytes up to the one that ends the name, of which `room` more may belong to it. -/
def nameBytes : (room : Nat) → Scan σ Bytes
  | 0 => do
    if (← Scan.byte) = keyNameEnd then return [] else Scan.refuse (.keyNameTooLong maxKeyName)
  | room + 1 => do
    let b ← Scan.byte
    if b = keyNameEnd then return [] else return b :: (← nameBytes room)

/-- The key name, which has at least one byte, as it stands and as a text. -/
def decodeKeyName : Scan σ (Bytes × String) := do
  let raw ← nameBytes maxKeyName
  if raw = [] then Scan.refuse .missingKeyName
  match Bytes.toText? raw with
  | some name => return (raw, name)
  | none => Scan.refuse .invalidKeyName

/-- **The header at the beginning of a source**, or what stands there instead.  Only the marker
decides that it is no such header; after it, every fault is a failure.  The tag is checked against
the bytes that were read, not against the header that was made of them. -/
def probe (resolver : Resolver) : Scan σ Probe := do
  let marker ← Scan.int32
  if marker ≠ authenticatedMarker then return .foreign marker
  let (raw, keyName) ← decodeKeyName
  let key ← Scan.asking (resolver.key keyName)
  let length ← Scan.byte
  let nonce ← Scan.bytes length.toNat
  let read := Bytes.ofInt32 marker ++ raw ++ keyNameEnd :: length :: nonce
  let carried ← Scan.bytes headerTagWidth
  match checkTag key read carried with
  | .ok () => return .parsed { nonce, keyName, resolver := some resolver }
  | .error e => throw e

/-- The header at the beginning of a source; anything else is a failure. -/
def decode (resolver : Resolver) : Scan σ AuthenticatedHeader := do
  match ← probe resolver with
  | .parsed h => return h
  | .foreign tag => Scan.refuse (.versionMismatch tag)

end AuthenticatedHeader

end Envelope

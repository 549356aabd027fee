/-
# Plain headers

    total length : 4 | nonce length : 4 | nonce | key name length : 4 | key name

All lengths are signed numbers, most significant byte first.  The last two fields are there or not,
and only the total length says which; every length has to agree with it exactly.  A plain header is
not authenticated, and reading one never asks a resolver.
-/
import Envelope.Header.Scan
import Envelope.Bytes.Utf8

namespace Envelope

/-- A header that is not authenticated.  Its length is not kept beside the two fields: whoever
builds a header computes it from them, and decoding takes a total length only if it is the one that
they have, so it is always `PlainHeader.length`. -/
structure PlainHeader where
  nonce : Bytes
  keyName : Option String
  deriving DecidableEq, Repr

namespace PlainHeader

/-- A header of a nonce and a key name that are short enough. -/
def new (nonce : Bytes) (keyName : Option String) : Except Failure PlainHeader :=
  if maxNonce < nonce.length then .error (.encoding (.invalidNonceLength nonce.length))
  else
    match keyName with
    | some name =>
      if maxKeyName < name.utf8ByteSize then .error (.encoding (.keyNameTooLong maxKeyName))
      else .ok { nonce, keyName }
    | none => .ok { nonce, keyName }

/-- The width of the fields that carry the key name. -/
def keyNameWidth : Option String → Nat
  | none => 0
  | some name => keyNameLengthWidth + name.utf8ByteSize

/-- The length of the encoded header. -/
def length (h : PlainHeader) : Nat :=
  plainFixedWidth + h.nonce.length + keyNameWidth h.keyName

/-- The fields that carry the key name. -/
def keyNameFields : Option String → Bytes
  | none => []
  | some name => Bytes.ofNatBE 4 name.utf8ByteSize ++ Bytes.ofText name

/-- **The encoded header.** -/
def encode (h : PlainHeader) : Bytes :=
  Bytes.ofNatBE 4 h.length ++ Bytes.ofNatBE 4 h.nonce.length ++ h.nonce ++ keyNameFields h.keyName

variable {σ : Type} [Source σ]

/-- The key name at the end of a header of `total` bytes, of which `before` were read. -/
def decodeKeyName (total before : Nat) : Scan σ (Option String) := do
  if total = before then return none
  let length ← Scan.int32
  if length < 0 ∨ maxKeyName < length ∨ before + keyNameLengthWidth + length ≠ total then
    Scan.refuse (.invalidKeyNameLength length)
  let name ← Scan.bytes length.toNat
  match Bytes.toText? name with
  | some name => return some name
  | none => Scan.refuse .invalidKeyName

/-- **A header from its encoding.** -/
def decode : Scan σ PlainHeader := do
  let total ← Scan.int32
  if total < 0 then Scan.refuse (.negativeLength total)
  let length ← Scan.int32
  if length < 0 ∨ maxNonce < length ∨ total < plainFixedWidth + length then
    Scan.refuse (.invalidNonceLength length)
  let nonce ← Scan.bytes length.toNat
  let keyName ← decodeKeyName total.toNat (plainFixedWidth + nonce.length)
  return { nonce, keyName }

end PlainHeader

end Envelope

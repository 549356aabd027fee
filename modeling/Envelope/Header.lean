/-
# Headers

Every ciphertext begins with a header in one of two layouts, and the first four bytes say which.  A
reader of both tries the authenticated one first; if the marker is not there it goes back and reads
a plain one.  Nothing else leads to the plain layout: a header that begins with the marker and is
faulty is never read as a plain one.
-/
import Envelope.Header.Plain
import Envelope.Header.Authenticated
import Envelope.Source.Memory
import Envelope.Source.Stream
import Envelope.Bytes.Hex

namespace Envelope

/-- A header in either layout. -/
inductive Header where
  | plain (h : PlainHeader)
  | authenticated (h : AuthenticatedHeader)

namespace Header

/-! ## 1. Parts -/

/-- What the layout is called. -/
def version : Header → String
  | .plain _ => "v1"
  | .authenticated _ => "v2"

/-- The nonce of the body. -/
def nonce : Header → Bytes
  | .plain h => h.nonce
  | .authenticated h => h.nonce

/-- The key name, if the header carries one. -/
def keyName : Header → Option String
  | .plain h => h.keyName
  | .authenticated h => some h.keyName

/-- The length of the encoded header. -/
def length : Header → Nat
  | .plain h => h.length
  | .authenticated h => h.length

/-! ## 2. Writing -/

/-- The encoded header; an authenticated one asks its own resolver for the key. -/
def encode : Header → Asking Bytes
  | .plain h => pure h.encode
  | .authenticated h => h.encode

/-- The encoded header under a key, which a plain one does not need. -/
def encodeWith (key : Key) : Header → Bytes
  | .plain h => h.encode
  | .authenticated h => h.encodeWith key

/-! ## 3. Reading -/

variable {σ : Type} [Source σ]

/-- **The header at the beginning of a source.** -/
def decode (resolver : Resolver) : Scan σ Header := do
  Scan.mark
  match ← AuthenticatedHeader.probe resolver with
  | .parsed h => return .authenticated h
  | .foreign _ => do
    Scan.rewind
    return .plain (← PlainHeader.decode)

/-- The header at the beginning of some bytes, and the number of bytes it takes. -/
def ofBytes (resolver : Resolver) (bytes : Bytes) : Asking (Header × Nat) := fun asked =>
  match decode resolver ⟨MemorySource.ofBytes bytes, asked⟩ with
  | .ok h s => .ok (h, s.source.position) s.asked
  | .error e s => .error e s.asked

/-! ## 4. Descriptions -/

/-- One line about a header. -/
def describe (h : Header) : String :=
  h.version ++ " header: len=" ++ toString h.length ++ " nonce=" ++ h.nonce.elided ++ " key=" ++
    h.keyName.getD "<none>"

/-- The bytes of a nonce as diagnostics list them. -/
def listed (bs : Bytes) : String :=
  Text.bracketed (bs.map fun b => toString b.toNat)

/-- All the parts of a header, as diagnostics write them. -/
def inspect : Header → String
  | .plain h =>
    let name := match h.keyName with
      | some name => "Some(" ++ Text.quoted name ++ ")"
      | none => "None"
    "V1(HeaderV1 \x7b length: " ++ toString h.length ++ ", nonce: " ++ listed h.nonce ++
      ", key_name: " ++ name ++ " \x7d)"
  | .authenticated h =>
    "V2(HeaderV2 \x7b key_name: " ++ Text.quoted h.keyName ++ ", nonce: " ++ listed h.nonce ++
      ", resolver: " ++ toString h.resolver.isSome ++ " \x7d)"

end Header

end Envelope

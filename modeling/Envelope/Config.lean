/-
# Configuration of a sealer

A configuration names the key that new ciphertexts are sealed under, the suite, the layout of their
headers, and the size of the pieces in which streams are worked through.  It decides nothing about
opening: both layouts are read whatever the configuration says.

A configuration can be written as JSON.  Only the alias is required; what is read is checked like
any other configuration.
-/
import Envelope.Suite
import Envelope.Bytes.Utf8

namespace Envelope

/-- Which layout the headers of new ciphertexts have. -/
inductive HeaderPolicy where
  | plain
  | authenticated
  deriving DecidableEq, Repr

namespace HeaderPolicy

/-- How diagnostics write the policy. -/
def tag : HeaderPolicy → String
  | .plain => "Plain"
  | .authenticated => "Authenticated"

/-- How a configuration writes the policy. -/
def key : HeaderPolicy → String
  | .plain => "plain"
  | .authenticated => "authenticated"

/-- A policy from its name in a configuration. -/
def decode : Json.Document → Json.Reading HeaderPolicy :=
  Json.decodeVariant ([plain, authenticated].map fun p => (p.key, p))

end HeaderPolicy

/-- What a sealer is set up with. -/
structure Config where
  /-- The name under which new ciphertexts are sealed. -/
  keyAlias : String
  suite : Option Suite := none
  policy : HeaderPolicy := .plain
  /-- The number of bytes of a stream that are worked on at a time. -/
  chunkSize : Nat := defaultChunk
  deriving DecidableEq, Repr

namespace Config

/-- The alias can stand in both header layouts, and the chunk size is neither zero nor too large. -/
def validate (c : Config) : Except Failure Unit :=
  if c.keyAlias.utf8ByteSize = 0 then .error (.config .emptyAlias)
  else if maxKeyName < c.keyAlias.utf8ByteSize then .error (.config .aliasTooLong)
  else if keyNameEnd ∈ Bytes.ofText c.keyAlias then .error (.config .aliasContainsNul)
  else if c.chunkSize = 0 ∨ maxChunk < c.chunkSize then .error (.config (.chunkSize c.chunkSize))
  else .ok ()

/-- The fields of a configuration in JSON. -/
def fields : Json.Record Config where
  expected := "struct BeanConfig"
  expectedLength := "struct BeanConfig with 4 elements"
  isOpen := true
  blank := { keyAlias := "" }
  fields := [
    ⟨"key_alias", false, fun d c => do
      return { c with keyAlias := ← Json.decodeText d }⟩,
    ⟨"suite", true, fun d c => do
      return { c with suite := ← Json.decodeOptional Suite.decode d }⟩,
    ⟨"header_policy", true, fun d c => do return { c with policy := ← HeaderPolicy.decode d }⟩,
    ⟨"chunk_size", true, fun d c => do return { c with chunkSize := ← Json.decodeSize d }⟩]

/-- **A configuration from JSON**, checked. -/
def ofJson (text : String) : Except Failure Config :=
  match Json.decodeAll fields.decode text with
  | .error problem => .error (.config (.unreadable problem))
  | .ok c =>
    match c.validate with
    | .error e => .error e
    | .ok () => .ok c

/-- A configuration as JSON. -/
def toJson (c : Config) : String :=
  Json.renderObject [
    ("key_alias", Json.renderString c.keyAlias),
    ("suite", (c.suite.map Suite.toJson).getD "null"),
    ("header_policy", Json.renderString c.policy.key),
    ("chunk_size", toString c.chunkSize)]

/-- All the parts of a configuration, as diagnostics write them. -/
def inspect (c : Config) : String :=
  let suite := match c.suite with
    | some s => "Some(" ++ s.tag ++ ")"
    | none => "None"
  "BeanConfig \x7b key_alias: " ++ Text.quoted c.keyAlias ++ ", suite: " ++ suite ++
    ", header_policy: " ++ c.policy.tag ++ ", chunk_size: " ++ toString c.chunkSize ++ " \x7d"

end Config

end Envelope

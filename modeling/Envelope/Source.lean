/-
# Where headers are read from

A header is read field by field from a source of bytes.  All that the two layouts need is here: to
take an exact number of bytes, to know how many were taken, and to go back to a place once marked.
They are written against this interface once, and read from memory and from a stream alike.  A byte
or a number is read as the bytes it takes.
-/
import Envelope.Error
import Envelope.Bytes

namespace Envelope

/-- A source of bytes that can be read in fields and taken back to a mark. -/
class Source (σ : Type) where
  /-- Exactly `n` bytes, or a failure. -/
  take : (n : Nat) → EStateM Failure σ Bytes
  /-- The bytes handed out so far, less those taken back. -/
  consumed : σ → Nat
  /-- Remembers the place. -/
  mark : σ → σ
  /-- Back to the last mark. -/
  rewind : EStateM Failure σ Unit

namespace Source

variable {σ : Type} [Source σ]

/-- One byte. -/
def byte : EStateM Failure σ UInt8 := do
  return (← take 1).headD 0

/-- An unsigned number of four bytes, most significant first. -/
def nat32 : EStateM Failure σ Nat := do
  return Bytes.toNatBE (← take 4)

/-- A signed number of four bytes, most significant first. -/
def int32 : EStateM Failure σ Int := do
  return Bytes.toInt32 (← take 4)

end Source

/-- The failure of a source that ends `wanted` bytes too early. -/
def Failure.truncated (wanted : Nat) : Failure := .encoding (.truncated wanted)

end Envelope

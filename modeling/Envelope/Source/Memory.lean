/-
# Reading from memory

All the bytes are there, so a place is a number and going back is always possible.  A field that is
not complete is not taken at all.
-/
import Envelope.Source

namespace Envelope

/-- A byte string with a place in it and a mark. -/
structure MemorySource where
  bytes : Bytes
  position : Nat := 0
  marked : Nat := 0
  deriving DecidableEq, Repr

namespace MemorySource

/-- A source at the beginning of some bytes. -/
def ofBytes (bytes : Bytes) : MemorySource := { bytes }

/-- The bytes from the place on. -/
def unread (s : MemorySource) : Bytes := s.bytes.drop s.position

/-- Exactly `n` bytes; a shorter rest stays where it is. -/
def take (n : Nat) : EStateM Failure MemorySource Bytes := fun s =>
  let available := s.unread.length
  if available < n then .error (.truncated (n - available)) s
  else .ok (s.unread.take n) { s with position := s.position + n }

instance : Source MemorySource where
  take := take
  consumed s := s.position
  mark s := { s with marked := s.position }
  rewind s := .ok () { s with position := s.marked }

end MemorySource

end Envelope

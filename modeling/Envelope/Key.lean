/-
# Keys and the names they go by

A header carries a key's name, never the key.  Whoever opens a ciphertext has to find the key for
the name, and nothing here remembers what was found: a name that is given another key means that key
from the next call on.

A resolver is therefore asked anew each time, and may answer differently each time.  Its answer is a
function of the name and of the names it was asked before; a resolver whose answers depend on the
name alone is the special case `Resolver.ofFunction`.  The names asked are kept in order, because
the order in which an operation consults its resolver is part of what it does.
-/
import Envelope.Error
import Envelope.Bytes

namespace Envelope

/-! ## 1. Keys -/

/-- A symmetric key.  Its text never shows its bytes. -/
structure Key where
  bytes : Bytes
  deriving DecidableEq

namespace Key

/-- The number of bytes. -/
def length (k : Key) : Nat := k.bytes.length

/-- Whether the key has no bytes. -/
def isEmpty (k : Key) : Bool := k.bytes.isEmpty

/-- What diagnostics show of a key: its length. -/
def describe (k : Key) : String := s!"SymmetricKey({k.length} bytes)"

end Key

/-! ## 2. Rings -/

/-- Keys under names, at most one to a name. -/
structure KeyRing where
  entries : List (String × Key)

namespace KeyRing

/-- A ring without keys. -/
def empty : KeyRing := ⟨[]⟩

/-- The key under a name. -/
def find? (ring : KeyRing) (name : String) : Option Key :=
  ring.entries.lookup name

/-- The ring without the key under a name. -/
def remove (ring : KeyRing) (name : String) : KeyRing :=
  ⟨ring.entries.filter (·.1 ≠ name)⟩

/-- The ring with a key under a name, in the place of any that was there. -/
def insert (ring : KeyRing) (name : String) (key : Key) : KeyRing :=
  ⟨(name, key) :: (ring.remove name).entries⟩

/-- Whether there is a key under a name. -/
def contains (ring : KeyRing) (name : String) : Bool :=
  (ring.find? name).isSome

/-- The number of keys. -/
def size (ring : KeyRing) : Nat := ring.entries.length

/-- Whether there are no keys. -/
def isEmpty (ring : KeyRing) : Bool := ring.entries.isEmpty

/-- A ring filled in order: a later key replaces an earlier one under the same name. -/
def ofList (entries : List (String × Key)) : KeyRing :=
  entries.foldl (fun ring (name, key) => ring.insert name key) empty

end KeyRing

/-! ## 3. Resolvers -/

/-- Whatever finds keys for names. -/
structure Resolver where
  /-- The key for a name, given the names asked for before, oldest first. -/
  answer : (asked : List String) → (name : String) → Option Key

/-- A computation that may ask a resolver.  Its state is the names asked so far, oldest first. -/
abbrev Asking := EStateM Failure (List String)

namespace Resolver

/-- A resolver whose answers depend on the name alone. -/
def ofFunction (f : String → Option Key) : Resolver := ⟨fun _ name => f name⟩

/-- A resolver that answers every name with one key. -/
def fixed (key : Key) : Resolver := ofFunction fun _ => some key

/-- A resolver that looks names up in a ring. -/
def ofRing (ring : KeyRing) : Resolver := ofFunction ring.find?

/-- A resolver that ignores the name: its answers come in order, and the last one repeats. -/
def inTurn (answers : List (Option Key)) : Resolver :=
  ⟨fun asked _ => (answers.getD asked.length (answers.getLastD none))⟩

/-- Asking for a name, which is noted whether there is a key or not. -/
def ask (r : Resolver) (name : String) : Asking (Option Key) := fun asked =>
  .ok (r.answer asked name) (asked ++ [name])

/-- The key for a name; an unanswered name is a failure. -/
def key (r : Resolver) (name : String) : Asking Key := do
  match ← r.ask name with
  | some k => return k
  | none => throw (.key (.notFound name))

end Resolver

end Envelope

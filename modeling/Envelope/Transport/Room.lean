/-
# Room for bytes whose number is not known

Whoever wants everything that a reader has does not know how much that is, and so how much to ask
for.  The first call asks for a little, so that a source that is empty costs nothing.  What it
handed out is put into a buffer of about that size, which is doubled whenever there is less room in
it than the first call asked for.

From then on room is prepared in stretches: as much as there is, but no more than a limit, which
rises when a stretch of that size has been filled at once.  A stretch that a call did not fill
serves the following calls while more is left of it than the first call asked for; then the next one
is prepared, and it begins where the bytes end.

How much a call asks for changes neither the bytes nor their order, but it can change the number of
calls, and with it which of them are interrupted.
-/
import Envelope.Bytes

namespace Envelope

/-- A buffer that grows while it is filled. -/
structure Room where
  held : Nat := 0
  capacity : Nat := 0
  /-- What is left of the stretch that was prepared last. -/
  prepared : Nat := 0
  /-- The length of the longest stretch. -/
  limit : Nat := 8192
  deriving DecidableEq, Repr

namespace Room

/-- The number of bytes that the first call asks for; a stretch with no more left is given up. -/
def step : Nat := 32

/-- The capacity of the smallest buffer. -/
def least : Nat := 8

/-- The capacity for the next call: a buffer with room for less than a step is doubled, or grows
until it has room for one if that is more. -/
def grown (room : Room) : Nat :=
  if room.capacity < room.held + step then max (2 * room.capacity) (room.held + step)
  else room.capacity

/-- The number of bytes that the next call asks for: what is left of the last stretch, or a new
one. -/
def asked (room : Room) : Nat :=
  if room.prepared ≤ step then min (room.grown - room.held) room.limit else room.prepared

/-- The room after a call that handed out `n` bytes.  The buffer is made by the first of them; the
limit is doubled by a call that asked for so much and got it. -/
def add (n : Nat) (room : Room) : Room :=
  if room.capacity = 0 then { room with held := n, capacity := max n least }
  else
    { held := room.held + n, capacity := room.grown, prepared := room.asked - n
      limit := if n = room.asked ∧ room.limit ≤ n then 2 * room.limit else room.limit }

end Room

end Envelope

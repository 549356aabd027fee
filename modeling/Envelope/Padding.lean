/-
# Padding to whole blocks

A message is closed with `r` bytes of value `r`, `1 ≤ r ≤ 16`, as many as bring it to whole blocks;
a message of whole blocks gets one more.  Taking the padding off is strict: every one of the `r`
bytes is checked.
-/
import Envelope.Bytes

namespace Envelope.Padding

/-- The padding after `n` bytes of a message. -/
def after (n : Nat) : Bytes :=
  let r := 16 - n % 16
  List.replicate r (UInt8.ofNat r)

/-- The message without its padding, if it ends in `r` bytes of value `r` with `1 ≤ r ≤ 16`. -/
def strip? (padded : Bytes) : Option Bytes :=
  let r := (padded.getLastD 0).toNat
  if 1 ≤ r ∧ r ≤ 16 ∧ r ≤ padded.length ∧
      padded.drop (padded.length - r) = List.replicate r (UInt8.ofNat r) then
    some (padded.take (padded.length - r))
  else none

end Envelope.Padding

/-
# Durations

A span of time in whole nanoseconds.  In JSON it is written as seconds and nanoseconds apart, and
more than a second's worth of nanoseconds carries over.  As a number of seconds it is a double: the
seconds and the nanoseconds are each converted, and then added.
-/
import Envelope.Json.Decode
import Envelope.Json.Render

namespace Envelope

/-- A span of time. -/
structure Duration where
  nanos : Nat
  deriving DecidableEq, Repr

namespace Duration

/-- No time. -/
def zero : Duration := ⟨0⟩

/-- The nanoseconds of a second. -/
def perSecond : Nat := 1000000000

instance : Add Duration := ⟨fun a b => ⟨a.nanos + b.nanos⟩⟩

instance : LE Duration := ⟨fun a b => a.nanos ≤ b.nanos⟩

instance (a b : Duration) : Decidable (a ≤ b) := inferInstanceAs (Decidable (a.nanos ≤ b.nanos))

/-- The whole seconds. -/
def seconds (d : Duration) : Nat := d.nanos / perSecond

/-- The nanoseconds beyond the whole seconds. -/
def subseconds (d : Duration) : Nat := d.nanos % perSecond

/-- The time in seconds. -/
def toSeconds (d : Duration) : Float :=
  (UInt64.ofNat d.seconds).toFloat + (UInt64.ofNat d.subseconds).toFloat / 1e9

/-- The time in milliseconds. -/
def toMillis (d : Duration) : Float := d.toSeconds * 1e3

/-- The time in microseconds. -/
def toMicros (d : Duration) : Float := d.toSeconds * 1e6

/-- The fields of a duration in JSON, where no others are allowed. -/
def fields : Json.Record (Nat × Nat) where
  expected := "struct Duration"
  expectedLength := "struct Duration"
  isOpen := false
  blank := (0, 0)
  fields := [
    ⟨"secs", false, fun d p => do return (← Json.decodeNat64 d, p.2)⟩,
    ⟨"nanos", false, fun d p => do return (p.1, ← Json.decodeNat32 d)⟩]

/-- **A duration from seconds and nanoseconds**, whose whole seconds have to fit into 64 bits. -/
def decode (d : Json.Document) : Json.Reading Duration := do
  let (seconds, nanos) ← fields.decode d
  if 0x10000000000000000 ≤ seconds + nanos / perSecond then throw .malformed
  return ⟨seconds * perSecond + nanos⟩

/-- A duration as JSON. -/
def toJson (d : Duration) : String :=
  Json.renderObject [("secs", toString d.seconds), ("nanos", toString d.subseconds)]

end Duration

end Envelope

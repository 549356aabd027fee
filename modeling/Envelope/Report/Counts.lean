/-
# Counting the bytes of a stream

While a stream is sealed or opened, the bytes of its header and of its body are counted, and the
chunks the body is worked through in.  The header counts apart from the body on both sides.
-/
import Envelope.Json.Decode
import Envelope.Json.Render

namespace Envelope

/-- What was counted during one stream. -/
structure Counts where
  /-- Chunks of the body that went through the engine. -/
  chunks : Nat := 0
  /-- Bytes of the header, written when sealing and read when opening. -/
  bytesHeader : Nat := 0
  /-- Bytes of the body that were read. -/
  bytesIn : Nat := 0
  /-- Bytes of the body that were written. -/
  bytesOut : Nat := 0
  deriving DecidableEq, Repr

namespace Counts

/-- A header of `n` bytes. -/
def addHeader (n : Nat) (c : Counts) : Counts :=
  { c with bytesHeader := c.bytesHeader + n }

/-- A chunk of the body, and what the engine gave out for it. -/
def addChunk (read written : Nat) (c : Counts) : Counts :=
  { c with chunks := c.chunks + 1, bytesIn := c.bytesIn + read, bytesOut := c.bytesOut + written }

/-- What the engine gave out at the end. -/
def addFinal (written : Nat) (c : Counts) : Counts :=
  { c with bytesOut := c.bytesOut + written }

/-- The counts of two streams together. -/
def merge (c d : Counts) : Counts where
  chunks := c.chunks + d.chunks
  bytesHeader := c.bytesHeader + d.bytesHeader
  bytesIn := c.bytesIn + d.bytesIn
  bytesOut := c.bytesOut + d.bytesOut

instance : Add Counts := ⟨merge⟩

/-- Header and body together. -/
def totalWritten (c : Counts) : Nat := c.bytesHeader + c.bytesOut

/-- The fields of counts in JSON. -/
def fields : Json.Record Counts where
  expected := "struct TelemetryCounters"
  expectedLength := "struct TelemetryCounters with 4 elements"
  isOpen := true
  blank := {}
  fields := [
    ⟨"chunks", false, fun d c => do return { c with chunks := ← Json.decodeNat64 d }⟩,
    ⟨"bytes_header", false, fun d c => do return { c with bytesHeader := ← Json.decodeNat64 d }⟩,
    ⟨"bytes_in", false, fun d c => do return { c with bytesIn := ← Json.decodeNat64 d }⟩,
    ⟨"bytes_out", false, fun d c => do return { c with bytesOut := ← Json.decodeNat64 d }⟩]

/-- Counts from JSON. -/
def ofJson : String → Json.Reading Counts := Json.decodeAll fields.decode

/-- Counts as the fields of a JSON object. -/
def jsonFields (c : Counts) : List (String × String) := [
  ("chunks", toString c.chunks), ("bytes_header", toString c.bytesHeader),
  ("bytes_in", toString c.bytesIn), ("bytes_out", toString c.bytesOut)]

/-- Counts as JSON. -/
def toJson (c : Counts) : String := Json.renderObject c.jsonFields

end Counts

end Envelope

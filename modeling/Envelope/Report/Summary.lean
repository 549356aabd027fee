/-
# The summary of a stream

What a stream call reports when it has succeeded: its counts, the ratio of the body's sizes, how
fast it went, and the time of its stages.
-/
import Envelope.Report.Counts
import Envelope.Report.Stages

namespace Envelope

/-- The summary of one stream. -/
structure Summary where
  counts : Counts
  /-- Bytes of the body written for each one read; zero if none were read. -/
  sizeRatio : Float
  /-- Bytes of the body read in each second; zero if no time passed. -/
  throughput : Float
  elapsed : Duration
  stageTimes : StageTimes

namespace Summary

/-- A count as a double. -/
def floatOfCount (n : Nat) : Float := (UInt64.ofNat n).toFloat

/-- **The summary of counts and times.** -/
def of (counts : Counts) (elapsed : Duration) (stageTimes : StageTimes) : Summary where
  counts := counts
  sizeRatio :=
    if 0 < counts.bytesIn then floatOfCount counts.bytesOut / floatOfCount counts.bytesIn
    else 0
  throughput :=
    if 0 < elapsed.toSeconds then floatOfCount counts.bytesIn / elapsed.toSeconds else 0
  elapsed := elapsed
  stageTimes := stageTimes

/-- Whether the stages take no longer than the whole. -/
def isSane (s : Summary) : Bool := s.stageTimes.total ≤ s.elapsed

/-- Header and body together, as they were written. -/
def outputBytes (s : Summary) : Nat := s.counts.totalWritten

/-- The fields of a summary in JSON. -/
def fields : Json.Record Summary where
  expected := "struct TelemetrySnapshot"
  expectedLength := "struct TelemetrySnapshot with 8 elements"
  isOpen := true
  blank := of {} .zero {}
  fields :=
    Counts.fields.fields.map
      (fun f => ⟨f.name, f.mayLack, fun d s => do
        return { s with counts := ← f.enter d s.counts }⟩) ++ [
    ⟨"size_ratio", false, fun d s => do return { s with sizeRatio := ← Json.decodeFloat d }⟩,
    ⟨"throughput_bytes_per_sec", false, fun d s => do
      return { s with throughput := ← Json.decodeFloat d }⟩,
    ⟨"elapsed", false, fun d s => do return { s with elapsed := ← Duration.decode d }⟩,
    ⟨"stage_times", false, fun d s => do
      return { s with stageTimes := ← StageTimes.fields.decode d }⟩]

/-- A summary from JSON. -/
def ofJson : String → Json.Reading Summary := Json.decodeAll fields.decode

/-- A summary as JSON. -/
def toJson (s : Summary) : String :=
  Json.renderObject (s.counts.jsonFields ++ [
    ("size_ratio", Json.renderFloat s.sizeRatio),
    ("throughput_bytes_per_sec", Json.renderFloat s.throughput),
    ("elapsed", s.elapsed.toJson), ("stage_times", s.stageTimes.toJson)])

end Summary

end Envelope

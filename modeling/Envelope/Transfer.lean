/-
# Working a stream through an engine

A body is read in chunks of one size, each chunk goes through the engine, and what comes out is
written before the next chunk is read.  At the end the engine gives out the rest, and the writer is
flushed.  Only the last chunk may be shorter: a reader that delivers less is asked again.

All that takes part is in one record, and every step leaves it behind as it is even when it fails:
the writer with what it received, the source where it stands.  How long a stage takes is not
recorded here, only that it was entered.

A chunk may have any size.  That there is memory for the chunks is taken for granted: an input
buffer of one chunk and the room for what comes of it are made before any of the body is read.
-/
import Envelope.Engine
import Envelope.Source.Stream
import Envelope.Report.Summary
import Envelope.Transport.Writer

namespace Envelope

/-- Everything that takes part in one stream. -/
structure Transfer where
  engine : Engine
  source : StreamSource
  writer : Writer
  counts : Counts := {}
  stages : StageTimes := {}

namespace Transfer

/-! ## 1. Steps -/

/-- A stage entered. -/
def enter (s : Stage) (t : Transfer) : Transfer := { t with stages := t.stages.enter s }

/-- A change that cannot fail. -/
def note (change : Transfer → Transfer) : EStateM Failure Transfer Unit := fun t =>
  .ok () (change t)

/-- A call of the engine. -/
def onEngine {α : Type} (call : EStateM EngineError Engine α) : EStateM Failure Transfer α :=
  fun t =>
    match call t.engine with
    | .ok a engine => .ok a ({ t with engine }.enter .cipher)
    | .error e engine => .error (.ofEngine e) { t with engine }

/-- A call of the writer. -/
def onWriter (call : EStateM TransportError Writer Unit) : EStateM Failure Transfer Unit :=
  fun t =>
    match call t.writer with
    | .ok () writer => .ok () ({ t with writer }.enter .write)
    | .error e writer => .error (.transport e) { t with writer }

/-- A call of the engine leaves the source alone. -/
theorem source_onEngine {α : Type} {call : EStateM EngineError Engine α} {t t' : Transfer} {a : α}
    (h : onEngine call t = .ok a t') : t'.source = t.source := by
  unfold onEngine at h
  split at h
  · obtain ⟨_, rfl⟩ := EStateM.Result.ok.inj h
    rfl
  · simp at h

/-- A call of the writer leaves the source alone. -/
theorem source_onWriter {call : EStateM TransportError Writer Unit} {t t' : Transfer}
    (h : onWriter call t = .ok () t') : t'.source = t.source := by
  unfold onWriter at h
  split at h
  · obtain ⟨_, rfl⟩ := EStateM.Result.ok.inj h
    rfl
  · simp at h

/-- One chunk through the engine and to the writer. -/
def chunk (room : Nat) (input : Bytes) : EStateM Failure Transfer Unit := do
  let output ← onEngine (Engine.update input room)
  onWriter (Writer.writeAll output)
  note fun t => { t with counts := t.counts.addChunk input.length output.length }

/-- **A chunk leaves the source alone.** -/
theorem source_chunk {room : Nat} {input : Bytes} {t t' : Transfer}
    (h : chunk room input t = .ok () t') : t'.source = t.source := by
  simp only [chunk, bind, EStateM.bind] at h
  split at h
  · rename_i output t₁ h₁
    split at h
    · rename_i t₂ h₂
      obtain ⟨_, rfl⟩ := EStateM.Result.ok.inj h
      exact (source_onWriter h₂).trans (source_onEngine h₁)
    · simp at h
  · simp at h

/-! ## 2. The body -/

/-- Chunk after chunk until the source ends. -/
def chunks (size room : Nat) (t : Transfer) : EStateM.Result Failure Transfer Unit :=
  match _hp : t.source.piece size with
  | (.error e, source) => .error (.transport e) { t with source }
  | (.ok input, source) =>
    let t' := ({ t with source } : Transfer).enter .read
    if _hi : input = [] then .ok () t'
    else
      match _hc : chunk room input t' with
      | .error e t'' => .error e t''
      | .ok () t'' => chunks size room t''
termination_by t.source.left
decreasing_by
  rw [source_chunk _hc]
  have hl := StreamSource.left_piece _hp
  have : 0 < input.length := List.length_pos_iff.mpr _hi
  show source.left < t.source.left
  omega

/-- **The whole body**, and the end of it.  Every size is taken, as if the buffers for a chunk could
always be made; a program that has no memory for them stops here, before it reads any of it. -/
def body (size : Nat) : EStateM Failure Transfer Unit := do
  let room := (← get).engine.updateOutput size
  fun t => chunks size room t
  let room := max room (← get).engine.finishOutput
  let output ← onEngine (Engine.finish room)
  onWriter do
    Writer.writeAll output
    Writer.flush
  note fun t => { t with counts := t.counts.addFinal output.length }

/-! ## 3. The two directions -/

/-- A header that was written or read is counted. -/
def countHeader (header : Bytes) : EStateM Failure Transfer Unit :=
  note fun t => { t with counts := t.counts.addHeader header.length }

/-- Sealing: the header, then the body. -/
def outward (header : Bytes) (size : Nat) : EStateM Failure Transfer Unit := do
  onWriter (Writer.writeAll header)
  countHeader header
  body size

/-- Opening: a header that was read, then the body. -/
def inward (header : Bytes) (size : Nat) : EStateM Failure Transfer Unit := do
  countHeader header
  body size

/-- The summary of a stream that has come through. -/
def summary (t : Transfer) : Summary := .of t.counts .zero t.stages

end Transfer

end Envelope

/-
# Reading the fields of a header

A header is read from a source, and while it is read a resolver may be asked for a key.  A scan is
such a reading: it can take bytes, ask, and fail, and whatever happens the source and the names
asked stay as they were left.
-/
import Envelope.Source
import Envelope.Key

namespace Envelope

/-- Where a reading stands: its source, and the names asked for. -/
structure ScanState (σ : Type) where
  source : σ
  asked : List String

/-- A reading of header fields. -/
abbrev Scan (σ : Type) := EStateM Failure (ScanState σ)

namespace Scan

variable {σ : Type}

/-- A computation on the source alone. -/
def onSource {α : Type} (call : EStateM Failure σ α) : Scan σ α := fun s =>
  match call s.source with
  | .ok a source => .ok a { s with source }
  | .error e source => .error e { s with source }

/-- A computation that only asks. -/
def asking {α : Type} (call : Asking α) : Scan σ α := fun s =>
  match call s.asked with
  | .ok a asked => .ok a { s with asked }
  | .error e asked => .error e { s with asked }

/-- A failure of the header. -/
def refuse {α : Type} (e : HeaderError) : Scan σ α := throw (.encoding e)

variable [Source σ]

/-- Exactly `n` bytes. -/
def bytes (n : Nat) : Scan σ Bytes := onSource (Source.take n)

/-- One byte. -/
def byte : Scan σ UInt8 := onSource Source.byte

/-- A signed number of four bytes, most significant first. -/
def int32 : Scan σ Int := onSource Source.int32

/-- A field that is made from some bytes is the reading of these bytes, and then made from them. -/
theorem onSource_take {α : Type} (n : Nat) (f : Bytes → α) :
    (onSource (do return f (← Source.take n)) : Scan σ α) = do return f (← bytes n) := by
  funext s
  simp only [bytes, onSource, bind, EStateM.bind]
  cases Source.take n s.source <;> rfl

theorem byte_eq : (byte : Scan σ UInt8) = do return (← bytes 1).headD 0 := onSource_take 1 _

theorem int32_eq : (int32 : Scan σ Int) = do return Bytes.toInt32 (← bytes 4) :=
  onSource_take 4 _

/-- Remembers the place. -/
def mark : Scan σ Unit := fun s => .ok () { s with source := Source.mark s.source }

/-- Back to the mark. -/
def rewind : Scan σ Unit := onSource Source.rewind

end Scan

end Envelope

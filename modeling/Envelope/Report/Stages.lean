/-
# Time by stage

A call goes through stages, and time is charged to each of them; a stage that was entered is there
even if no time was charged.  There are five stages, so the record has five places.
-/
import Envelope.Report.Duration

namespace Envelope

/-- The stages of a call. -/
inductive Stage where
  | header
  | keyResolve
  | read
  | cipher
  | write
  deriving DecidableEq, Repr

namespace Stage

/-- All stages, in order. -/
def all : List Stage := [.header, .keyResolve, .read, .cipher, .write]

/-- What the stage is called. -/
def name : Stage → String
  | .header => "header"
  | .keyResolve => "key_resolve"
  | .read => "read"
  | .cipher => "cipher"
  | .write => "write"

/-- How the stage is written as a key in JSON. -/
def key : Stage → String
  | .header => "Header"
  | .keyResolve => "KeyResolve"
  | .read => "Read"
  | .cipher => "Cipher"
  | .write => "Write"

end Stage

/-- The time charged to each stage that was entered. -/
structure StageTimes where
  header : Option Duration := none
  keyResolve : Option Duration := none
  read : Option Duration := none
  cipher : Option Duration := none
  write : Option Duration := none
  deriving DecidableEq, Repr

namespace StageTimes

/-- The time charged to a stage, if it was entered. -/
def find? (t : StageTimes) : Stage → Option Duration
  | .header => t.header
  | .keyResolve => t.keyResolve
  | .read => t.read
  | .cipher => t.cipher
  | .write => t.write

/-- The record with another time for a stage. -/
def set (t : StageTimes) (d : Duration) : Stage → StageTimes
  | .header => { t with header := some d }
  | .keyResolve => { t with keyResolve := some d }
  | .read => { t with read := some d }
  | .cipher => { t with cipher := some d }
  | .write => { t with write := some d }

/-- The time charged to a stage; none was, if it was not entered. -/
def get (t : StageTimes) (s : Stage) : Duration := (t.find? s).getD .zero

/-- More time charged to a stage. -/
def add (t : StageTimes) (s : Stage) (d : Duration) : StageTimes :=
  t.set (t.get s + d) s

/-- A stage entered.  How long it takes is not this library's to say, so no time is charged. -/
def enter (t : StageTimes) (s : Stage) : StageTimes := t.add s .zero

/-- The stages that were entered, with their times. -/
def entries (t : StageTimes) : List (Stage × Duration) :=
  Stage.all.filterMap fun s => (t.find? s).map fun d => (s, d)

/-- The time of all stages together. -/
def total (t : StageTimes) : Duration :=
  t.entries.foldl (fun sum (_, d) => sum + d) .zero

/-- Whether each of some stages was entered. -/
def hasAll (t : StageTimes) (expected : List Stage) : Bool :=
  expected.all fun s => (t.find? s).isSome

/-- The stage of a key in JSON. -/
def decodeKey : String → Json.Reading Stage :=
  Json.variant (Stage.all.map fun s => (s.key, s))

/-- The one field of the record in JSON.  Of two times for one stage the later one counts. -/
def fields : Json.Record StageTimes where
  expected := "struct StageTimes"
  expectedLength := "struct StageTimes with 1 element"
  isOpen := true
  blank := {}
  fields := [
    ⟨"times", false, fun d _ => do
      let times ← Json.decodeMap decodeKey Duration.decode d
      return times.foldl (fun t (s, d) => t.set d s) {}⟩]

/-- The record as JSON. -/
def toJson (t : StageTimes) : String :=
  Json.renderObject [("times",
    Json.renderObject (t.entries.map fun (s, d) => (s.key, d.toJson)))]

end StageTimes

end Envelope

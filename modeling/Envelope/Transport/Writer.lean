/-
# Writers

A writer takes as many of the bytes it is offered as its rule allows.  An offer may also be
interrupted, which is not a failure: whoever writes offers the same bytes again.  As for readers,
interruptions are listed by the number of the call.  Offering everything means to offer the rest
again until nothing is left; a writer that takes nothing of an offer has failed.

What a writer has received stays with it whatever happens later, so a call that fails half way can
still be judged by what it let out.
-/
import Envelope.Bytes
import Envelope.Transport.Pace

namespace Envelope

/-- A sink of bytes, and what it has received. -/
structure Writer where
  received : Bytes := []
  /-- The offers made so far, interrupted and failed ones included. -/
  calls : Nat := 0
  /-- How many bytes each offer took that was neither, in order. -/
  accepted : List Nat := []
  flushes : Nat := 0
  /-- The numbers of the offers that are interrupted. -/
  interrupts : List Nat := []
  rule : Rule := fun _ _ _ asked => .ok asked
  /-- What a flush fails with, if it fails. -/
  flushFailure : Option TransportError := none

/-- What one offer to a writer comes to. -/
inductive WriteOutcome where
  | interrupted
  | failed (e : TransportError)
  /-- So many bytes were taken. -/
  | took (n : Nat)
  deriving DecidableEq, Repr

namespace Writer

/-- A writer that goes at a pace. -/
def paced (pace : Pace) (flushFailure : Option TransportError) : Writer :=
  { rule := pace.rule, flushFailure }

/-- The interruptions that are still to come. -/
def interruptsLeft (w : Writer) : Nat :=
  (w.interrupts.filter (w.calls ≤ ·)).length

/-- One offer: how many of the bytes are taken, counted from the front. -/
def write (offered : Bytes) (w : Writer) : WriteOutcome × Writer :=
  if w.calls ∈ w.interrupts then (.interrupted, { w with calls := w.calls + 1 })
  else
    match w.rule w.calls w.accepted.length w.received.length offered.length with
    | .error e => (.failed e, { w with calls := w.calls + 1 })
    | .ok n =>
      let n := min n offered.length
      (.took n,
        { w with
          received := w.received ++ offered.take n, calls := w.calls + 1
          accepted := w.accepted ++ [n] })

/-- **An interrupted offer uses up an interruption.** -/
theorem interruptsLeft_write {offered : Bytes} {w w' : Writer}
    (h : w.write offered = (.interrupted, w')) : w'.interruptsLeft < w.interruptsLeft := by
  unfold write at h
  split at h
  · rename_i hmem
    obtain rfl := (Prod.mk.injEq .. ▸ h).2
    exact length_filter_succ_lt hmem
  · split at h <;> simp at h

/-- **Everything is offered until it is taken.**  No bytes make no call. -/
def writeAll (offered : Bytes) : EStateM TransportError Writer Unit := fun w =>
  if _h : offered = [] then .ok () w
  else
    match _hw : w.write offered with
    | (.interrupted, w') => writeAll offered w'
    | (.failed e, w') => .error e w'
    | (.took n, w') =>
      if _hn : n = 0 then .error .writeZero w'
      else writeAll (offered.drop n) w'
termination_by w => (offered.length, w.interruptsLeft)
decreasing_by
  · exact Prod.Lex.right _ (interruptsLeft_write _hw)
  · have : 0 < offered.length := List.length_pos_iff.mpr _h
    exact Prod.Lex.left _ _ (by rw [List.length_drop]; omega)

/-- The request that nothing be held back. -/
def flush : EStateM TransportError Writer Unit := fun w =>
  let w := { w with flushes := w.flushes + 1 }
  match w.flushFailure with
  | some e => .error e w
  | none => .ok () w

end Writer

end Envelope

/-
# How fast a transport goes, and when it breaks

A transport takes or gives as many bytes at a time as it likes.  This module describes the
transports that can be written down: they go in steps of listed sizes, over and over, accept nothing
more after a given number of bytes, and break after a given number of bytes.  Readers and writers
are defined over an arbitrary rule; a pace is one way to make such a rule.
-/
import Envelope.Error

namespace Envelope

/-- How many bytes a transport moves in one call, given how many calls were made before, how many of
them returned, how many bytes these moved, and how many are asked for; or how it fails.  A rule that
looks at the number of calls can fail once and then go on. -/
abbrev Rule := (calls returned moved asked : Nat) → Except TransportError Nat

/-- Fewer numbers of a list are above `c` than from `c` on, if `c` is one of them.  As interruptions
are listed by the number of the call, whoever tries again comes to an end. -/
theorem length_filter_succ_lt {c : Nat} {l : List Nat} (h : c ∈ l) :
    (l.filter (c + 1 ≤ ·)).length < (l.filter (c ≤ ·)).length := by
  induction l with
  | nil => simp at h
  | cons x l ih =>
    have mono : (l.filter (c + 1 ≤ ·)).length ≤ (l.filter (c ≤ ·)).length := by
      simp only [← List.countP_eq_length_filter]
      exact List.countP_mono_left fun y _ hy => by simp at hy ⊢; omega
    rcases List.mem_cons.mp h with rfl | hl
    · rw [List.filter_cons_of_neg (by simp), List.filter_cons_of_pos (by simp)]
      simp only [List.length_cons]
      omega
    · have := ih hl
      by_cases hlow : c + 1 ≤ x
      · rw [List.filter_cons_of_pos (by simpa using hlow),
          List.filter_cons_of_pos (by simp; omega)]
        simp only [List.length_cons]
        omega
      · rw [List.filter_cons_of_neg (by simpa using hlow)]
        have : (l.filter (c ≤ ·)).length ≤ ((x :: l).filter (c ≤ ·)).length :=
          (List.Sublist.filter _ (List.sublist_cons_self x l)).length_le
        omega

/-- A rule that can be written down. -/
structure Pace where
  /-- The most bytes of each call, in turn; no bound when there are none. -/
  sizes : List Nat := []
  /-- After so many bytes the transport fails. -/
  failure : Option (Nat × TransportError) := none
  /-- After so many bytes the transport moves no more. -/
  closing : Option Nat := none
  deriving DecidableEq, Repr

namespace Pace

/-- The bound of a call that `returned` calls came before. -/
def sizeBound (sizes : List Nat) (returned asked : Nat) : Nat :=
  if sizes.isEmpty then asked else min asked (sizes.getD (returned % sizes.length) 0)

/-- The rule of a pace.  A call that reaches the point of failure stops there, and only the next one
fails. -/
def rule (p : Pace) : Rule := fun _ returned moved asked => do
  let asked ← match p.failure with
    | some (point, e) => if point ≤ moved then throw e else pure (min asked (point - moved))
    | none => pure asked
  let asked := match p.closing with
    | some point => min asked (point - moved)
    | none => asked
  return sizeBound p.sizes returned asked

end Pace

end Envelope

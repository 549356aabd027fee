/-
# What writers receive

A writer may take what it is offered in portions of any size, and an offer may be interrupted.  One
that never refuses, and takes at least one byte of every offer that is not, ends up with everything
that was offered, in order: neither the portions nor the interruptions are visible in what it has
received (`Accepting`).

Of a writer that may do anything, fail at any call or take nothing, less can be said, and it is what
matters when something went wrong: it holds a front of what it was offered, and nothing else
(`received_release`); and all of it, if the offer did not fail (`writeAll_cases`).
-/
import Envelope.Proofs.Reader
import Envelope.Proofs.Run
import Envelope.Transport.Writer

namespace Envelope.Writer

variable {w w' : Writer}

/-! ## 1. One offer -/

/-- What the writer `w'` behind an offer has received: the portion that was taken off the front
besides, or nothing more. -/
def Receives (w : Writer) (offered : Bytes) (w' : Writer) : WriteOutcome → Prop
  | .interrupted => w'.received = w.received
  | .failed _ => w'.received = w.received
  | .took n => w'.received = w.received ++ offered.take n

/-- **One offer**, whatever comes of it. -/
theorem receives_write {offered : Bytes} {outcome : WriteOutcome}
    (h : w.write offered = (outcome, w')) : Receives w offered w' outcome := by
  unfold write at h
  split at h
  · obtain ⟨rfl, rfl⟩ := Prod.mk.inj h
    rfl
  · split at h
    all_goals
      obtain ⟨rfl, rfl⟩ := Prod.mk.inj h
      rfl

/-! ## 2. Writers that accept everything -/

/-- **A writer that accepts everything**: at least one byte of every offer that is not interrupted,
and every flush. -/
structure Accepting (w : Writer) : Prop where
  takes : ∀ calls returned moved offered, 0 < offered →
    ∃ n, w.rule calls returned moved offered = .ok n ∧ 0 < n
  flushes : w.flushFailure = none

/-- Whether a writer accepts everything does not depend on what it has received. -/
theorem Accepting.of_rule (h : w.Accepting) (hr : w'.rule = w.rule)
    (hf : w'.flushFailure = w.flushFailure) : w'.Accepting := by
  refine ⟨?_, by rw [hf]; exact h.flushes⟩
  rw [hr]
  exact h.takes

/-- A writer at a pace of positive sizes accepts everything. -/
theorem accepting_paced {sizes : List Nat} (hs : ∀ n ∈ sizes, 0 < n) :
    (paced { sizes } none).Accepting where
  takes _ returned _ offered ho :=
    ⟨Pace.sizeBound sizes returned offered, rfl, Pace.sizeBound_pos hs returned ho⟩
  flushes := rfl

/-- One offer does not fail, and is not ignored: all it can be is interrupted, or taken in part. -/
theorem Accepting.write (h : w.Accepting) {offered : Bytes} (ho : offered ≠ [])
    {outcome : WriteOutcome} (hw : w.write offered = (outcome, w')) :
    w'.Accepting ∧ (∀ e, outcome ≠ .failed e) ∧ outcome ≠ .took 0 := by
  have hpos : 0 < offered.length := List.length_pos_iff.mpr ho
  obtain ⟨n, hn, hn0⟩ := h.takes w.calls w.accepted.length w.received.length offered.length hpos
  unfold Writer.write at hw
  split at hw
  · obtain ⟨rfl, rfl⟩ := Prod.mk.inj hw
    exact ⟨h.of_rule rfl rfl, by simp, by simp⟩
  · rw [hn] at hw
    obtain ⟨rfl, rfl⟩ := Prod.mk.inj hw
    have htaken : min n offered.length ≠ 0 := by omega
    exact ⟨h.of_rule rfl rfl, by simp, by simpa using htaken⟩

/-- **Everything offered is received**, whatever the portions and the interruptions. -/
theorem Accepting.writeAll (h : w.Accepting) (offered : Bytes) :
    ∃ w', Writer.writeAll offered w = .ok () w' ∧ w'.received = w.received ++ offered ∧
      w'.Accepting := by
  fun_induction Writer.writeAll offered w with
  | case1 w => exact ⟨w, rfl, (List.append_nil _).symm, h⟩
  | case2 offered w ho w₁ hw ih =>
    have hr₁ : w₁.received = w.received := receives_write hw
    obtain ⟨w₂, hw₂, hr₂, ha₂⟩ := ih (h.write ho hw).1
    exact ⟨w₂, hw₂, by rw [hr₂, hr₁], ha₂⟩
  | case3 offered w ho e w₁ hw => exact absurd rfl ((h.write ho hw).2.1 e)
  | case4 offered w ho w₁ hw => exact absurd rfl (h.write ho hw).2.2
  | case5 offered w ho n w₁ hw hn ih =>
    have hr₁ : w₁.received = w.received ++ offered.take n := receives_write hw
    obtain ⟨w₂, hw₂, hr₂, ha₂⟩ := ih (h.write ho hw).1
    refine ⟨w₂, hw₂, ?_, ha₂⟩
    rw [hr₂, hr₁, List.append_assoc, List.take_append_drop]

/-- A flush changes nothing of what was received. -/
theorem Accepting.flush (h : w.Accepting) :
    ∃ w', Writer.flush w = .ok () w' ∧ w'.received = w.received ∧ w'.Accepting := by
  refine ⟨{ w with flushes := w.flushes + 1 }, ?_, rfl, h.of_rule rfl rfl⟩
  unfold Writer.flush
  simp only [h.flushes]

/-- The last bytes of a stream: all of them are offered, and then a flush. -/
def release (out : Bytes) : EStateM TransportError Writer Unit :=
  writeAll out >>= fun _ => flush

/-- The last bytes are received like all others. -/
theorem Accepting.release (h : w.Accepting) (out : Bytes) :
    ∃ w', Writer.release out w = .ok () w' ∧ w'.received = w.received ++ out := by
  obtain ⟨w₁, hw₁, hr₁, ha₁⟩ := h.writeAll out
  obtain ⟨w₂, hw₂, hr₂, -⟩ := ha₁.flush
  refine ⟨w₂, ?_, by rw [hr₂, hr₁]⟩
  rw [Writer.release, bind_of_ok hw₁, hw₂]

/-! ## 3. Writers that may do anything -/

/-- No bytes make no call. -/
theorem writeAll_nil (w : Writer) : writeAll [] w = .ok () w := by
  rw [writeAll, dif_pos rfl]

/-- **What offering some bytes can come to**: all of them are received, or a front of them. -/
theorem writeAll_cases (offered : Bytes) (w : Writer) :
    (∃ w', writeAll offered w = .ok () w' ∧ w'.received = w.received ++ offered) ∨
      ∃ e w' taken, writeAll offered w = .error e w' ∧ taken <+: offered ∧
        w'.received = w.received ++ taken := by
  fun_induction writeAll offered w with
  | case1 w => exact Or.inl ⟨w, rfl, (List.append_nil _).symm⟩
  | case2 offered w ho w₁ hw ih =>
    have hr₁ : w₁.received = w.received := receives_write hw
    rwa [hr₁] at ih
  | case3 offered w ho e w₁ hw =>
    have hr₁ : w₁.received = w.received := receives_write hw
    exact Or.inr ⟨e, w₁, [], rfl, List.nil_prefix, by rw [hr₁, List.append_nil]⟩
  | case4 offered w ho w₁ hw =>
    exact Or.inr ⟨_, w₁, offered.take 0, rfl, List.take_prefix 0 offered, receives_write hw⟩
  | case5 offered w ho n w₁ hw hn ih =>
    have hr₁ : w₁.received = w.received ++ offered.take n := receives_write hw
    rcases ih with ⟨w₂, hw₂, hr₂⟩ | ⟨e, w₂, taken, hw₂, ⟨behind, hbehind⟩, hr₂⟩
    · refine Or.inl ⟨w₂, hw₂, ?_⟩
      rw [hr₂, hr₁, List.append_assoc, List.take_append_drop]
    · refine Or.inr ⟨e, w₂, offered.take n ++ taken, hw₂, ⟨behind, ?_⟩, ?_⟩
      · rw [List.append_assoc, hbehind, List.take_append_drop]
      · rw [hr₂, hr₁, List.append_assoc]

/-- All that was offered is received, if it was taken. -/
theorem received_of_writeAll {offered : Bytes} (h : writeAll offered w = .ok () w') :
    w'.received = w.received ++ offered := by
  rcases writeAll_cases offered w with ⟨w₁, hw, hr⟩ | ⟨e, w₁, taken, hw, -⟩
  · rw [h] at hw
    obtain ⟨-, rfl⟩ := EStateM.Result.ok.inj hw
    exact hr
  · rw [h] at hw
    simp at hw

/-- **Whatever comes of offering some bytes, a front of them is received.** -/
theorem received_writeAll (offered : Bytes) (w : Writer) :
    ∃ taken, taken <+: offered ∧
      (leftBy (writeAll offered w)).received = w.received ++ taken := by
  rcases writeAll_cases offered w with ⟨w', hw, hr⟩ | ⟨e, w', taken, hw, hfront, hr⟩
  · rw [hw]
    exact ⟨offered, List.prefix_refl _, hr⟩
  · rw [hw]
    exact ⟨taken, hfront, hr⟩

/-- A flush that fails changes nothing of what was received either. -/
@[simp] theorem received_flush (w : Writer) : (leftBy (flush w)).received = w.received := by
  unfold flush
  cases w.flushFailure <;> rfl

/-- **Whatever comes of releasing some bytes, a front of them is received.** -/
theorem received_release (out : Bytes) (w : Writer) :
    ∃ taken, taken <+: out ∧ (leftBy (release out w)).received = w.received ++ taken := by
  obtain ⟨taken, hfront, hreceived⟩ := received_writeAll out w
  refine ⟨taken, hfront, ?_⟩
  cases hw : writeAll out w with
  | error e w' =>
    rw [hw] at hreceived
    rw [release, bind_of_error hw]
    exact hreceived
  | ok _ w' =>
    rw [hw] at hreceived
    rw [release, bind_of_ok hw, received_flush]
    exact hreceived

/-- A release that succeeds has written everything, and the flush behind it has succeeded. -/
theorem release_eq_ok {out : Bytes} (h : release out w = .ok () w') :
    ∃ w₁, w₁.received = w.received ++ out ∧ flush w₁ = .ok () w' := by
  rw [release, bind_eq_ok] at h
  obtain ⟨_, w₁, hwritten, hflushed⟩ := h
  exact ⟨w₁, received_of_writeAll hwritten, hflushed⟩

end Envelope.Writer

/-
# An update that is refused

An update that is offered too little room is refused, and it is natural to ask for more room and
call again.  But the piece was taken in before the room was looked at: it stays pending, and the
second call feeds it a second time.  So a refused update is not undone, it is delayed
(`Refusal`), and what the engine promises of the room it needs holds only as long as no update
was refused.

How the engine stands after any calls whatever can still be said in full
(`refused_update_is_delayed`): it is an engine that holds back a block at most, as after a feed,
with the pieces of the refused updates behind it, and room for all of those together is enough.
-/
import Envelope.Proofs.Run
import Envelope.Proofs.Engine.Cbc

namespace Envelope.CbcEngine

open Cbc

/-! ## 1. Sessions -/

/-- A call of the engine. -/
inductive Call where
  | init (direction : Direction) (key nonce : Bytes)
  | update (input : Bytes) (room : Nat)
  | finish (room : Nat)
  deriving DecidableEq, Repr

/-- The engine that a call leaves, whether it ends well or fails. -/
def Call.after (e : CbcEngine) : Call → CbcEngine
  | .init direction key nonce => leftBy (CbcEngine.init direction key nonce e)
  | .update input room => leftBy (CbcEngine.update input room e)
  | .finish room => leftBy (CbcEngine.finish room e)

/-- **What refused updates have left behind after a call**, if they had left `held` before it.  The
piece of a refused update is added; any other update and a finish leave nothing, and neither does
keying, unless that is refused itself. -/
def Call.held (e : CbcEngine) (held : Bytes) : Call → Bytes
  | .init direction key nonce =>
    match CbcEngine.init direction key nonce e with
    | .ok _ _ => []
    | .error _ _ => held
  | .update input room =>
    match CbcEngine.update input room e with
    | .error (.outputTooSmall _ _) _ => held ++ input
    | _ => []
  | .finish _ => []

/-- The engine that calls leave, one after the other. -/
def after (calls : List Call) (e : CbcEngine) : CbcEngine := calls.foldl Call.after e

/-- What refused updates have left behind after calls, one after the other. -/
def heldAfter : List Call → CbcEngine → Bytes → Bytes
  | [], _, held => held
  | c :: calls, e, held => heldAfter calls (c.after e) (c.held e held)

/-! ## 2. More pending -/

/-- The engine with more pending, if it is keyed. -/
def holding (more : Bytes) (e : CbcEngine) : CbcEngine :=
  { e with state := e.state.map (·.holding more) }

/-- **What is pending and what is fed next are not told apart.** -/
theorem update_holding (more input : Bytes) (room : Nat) (e : CbcEngine) :
    update input room (e.holding more) = update (more ++ input) room e := by
  obtain ⟨width, _ | s⟩ := e
  · rfl
  · simp only [update, holding, Option.map_some, State.holding, List.append_assoc]
    rfl

/-- Keying starts with nothing pending, or is refused and changes nothing. -/
theorem init_cases (direction : Direction) (key nonce : Bytes) (e : CbcEngine) :
    (∃ s, s.pending = [] ∧ init direction key nonce e = .ok () ⟨e.width, some s⟩) ∨
      ∃ err, init direction key nonce e = .error err e := by
  unfold init
  split_ifs
  · exact .inr ⟨_, rfl⟩
  · exact .inr ⟨_, rfl⟩
  · exact .inl ⟨_, rfl, rfl⟩

/-- A finish leaves the engine without a key. -/
theorem after_finish (room : Nat) (e : CbcEngine) :
    (Call.finish room).after e = ⟨e.width, none⟩ := by
  obtain ⟨width, _ | s⟩ := e
  · rfl
  · rcases finish_cases width s room with hclose | ⟨need, -, -, hrefused⟩
    · rw [Call.after, hclose]
      cases s.close <;> rfl
    · rw [Call.after, hrefused]
      rfl

/-! ## 3. What refused updates leave behind -/

/-- **An engine with the pieces of refused updates pending**: behind them it is not keyed at all, or
holds back a block at most. -/
inductive Holds (held : Bytes) : CbcEngine → Prop
  | unkeyed (width : KeyWidth) (h : held = []) : Holds held ⟨width, none⟩
  | keyed (width : KeyWidth) (s : State) (h : s.Settled) : Holds held ⟨width, some (s.holding held)⟩

theorem Holds.of_settled (width : KeyWidth) {s : State} (h : s.Settled) :
    Holds [] ⟨width, some s⟩ := by
  have hkeyed : Holds [] ⟨width, some (s.holding [])⟩ := .keyed width s h
  rwa [s.holding_nil] at hkeyed

/-- **One call.** -/
theorem Holds.call {held : Bytes} {e : CbcEngine} (h : Holds held e) (c : Call) :
    Holds (c.held e held) (c.after e) := by
  -- a call that is not refused clears `held`, so only the refused ones keep the state underneath
  cases c with
  | init direction key nonce =>
    rcases init_cases direction key nonce e with ⟨s, hs, hok⟩ | ⟨err, herr⟩
    · simp only [Call.held, Call.after, hok, leftBy]
      exact .of_settled e.width (State.settled_of_nil hs)
    · simp only [Call.held, Call.after, herr, leftBy]
      exact h
  | update input room =>
    cases h with
    | unkeyed width hheld => exact .unkeyed width rfl
    | keyed width s hs =>
      rcases update_cases width (s.holding held) input room with hfeed | ⟨need, -, -, hrefused⟩
      · simp only [Call.held, Call.after, hfeed, leftBy]
        exact .of_settled width (State.settled_feed _ input)
      · simp only [Call.held, Call.after, hrefused, leftBy, State.holding_holding]
        exact .keyed width s hs
  | finish room =>
    rw [after_finish]
    exact .unkeyed e.width rfl

/-- **Any calls**, one after the other. -/
theorem Holds.calls {held : Bytes} {e : CbcEngine} (h : Holds held e) (calls : List Call) :
    Holds (heldAfter calls e held) (after calls e) := by
  induction calls generalizing held e with
  | nil => exact h
  | cons c calls ih => exact ih (h.call c)

/-- More than a block is pending only behind a refused update. -/
theorem Holds.pending_le {held : Bytes} {e : CbcEngine} (h : Holds held e) :
    e.pending ≤ blockWidth + held.length := by
  cases h with
  | unkeyed width hheld => exact Nat.zero_le _
  | keyed width s hs =>
    have hlen : (s.holding held).pending.length = s.pending.length + held.length :=
      List.length_append
    have hsettled : s.pending.length ≤ blockWidth := by
      unfold State.Settled at hs
      cases hd : s.direction with
      | encrypt => rw [hd] at hs; exact Nat.le_of_lt hs
      | decrypt => rw [hd] at hs; exact hs
    simp only [pending, Option.map_some, Option.getD_some, hlen]
    omega

/-- Room for all that was refused and for the piece together is enough. -/
theorem Holds.update_of_room {held : Bytes} {e : CbcEngine} (h : Holds held e) {input : Bytes}
    {room : Nat} (hr : updateOutput (held.length + input.length) ≤ room) (need room' : Nat)
    (e' : CbcEngine) : update input room e ≠ .error (.outputTooSmall need room') e' := by
  cases h with
  | unkeyed width hheld => simp [update]
  | keyed width s hs =>
    have hfits : ((s.holding held).feed input).1.length ≤ room := by
      rw [s.feed_holding]
      exact Nat.le_trans (room_piece hs (by rw [List.length_append])) hr
    rw [update_eq_feed hfits]
    simp

/-! ## 4. What a refusal is -/

/-- **A refused update is delayed**: what an update of `input` that needs `need` bytes and is
refused makes of the engine `e`. -/
structure Refusal (e : CbcEngine) (input : Bytes) (need room : Nat) (e' : CbcEngine) : Prop where
  short : room < need
  /-- The piece is pending. -/
  kept : e' = e.holding input
  /-- So only an update with nothing in it could be refused and leave the engine as it was. -/
  same : e' = e ↔ input = []
  /-- The next update is one of both pieces. -/
  again : ∀ more room', update more room' e' = update (input ++ more) room' e
  /-- A message that is ended here is lost. -/
  ended : ∀ room', finish room' e' =
    .error (if e'.decrypts then .invalidCiphertextLength e'.pending else .overfull e'.pending)
      ⟨e'.width, none⟩

/-- An engine with as much pending as an update refuses to give out cannot end the message. -/
theorem finish_of_refused (width : KeyWidth) {s : State}
    (h : 0 < ready s.direction s.pending.length) (room : Nat) :
    finish room ⟨width, some s⟩ =
      .error (if decrypts ⟨width, some s⟩ then .invalidCiphertextLength s.pending.length
        else .overfull s.pending.length) ⟨width, none⟩ := by
  obtain ⟨direction, keys, previous, held⟩ := s
  cases direction with
  | encrypt =>
    have hfull : blockWidth ≤ held.length := by
      simp only [ready, blockWidth] at h ⊢
      omega
    simp only [finish, lastEncrypted, if_pos hfull]
    rfl
  | decrypt =>
    have hlong : held.length ≠ blockWidth := by
      simp only [ready, blockWidth] at h ⊢
      omega
    simp only [finish, lastDecrypted, if_pos hlong]
    rfl

/-- **A refused update of any engine is a refusal.** -/
theorem refusal {e e' : CbcEngine} {input : Bytes} {need room room' : Nat}
    (h : update input room e = .error (.outputTooSmall need room') e') :
    Refusal e input need room e' := by
  obtain ⟨width, _ | s⟩ := e
  · simp [update] at h
  · rcases update_cases width s input room with hfeed | ⟨need', hshort, hneed, hrefused⟩
    · rw [hfeed] at h
      simp at h
    · rw [hrefused] at h
      obtain ⟨herror, rfl⟩ := EStateM.Result.error.inj h
      obtain ⟨rfl, -⟩ := EngineError.outputTooSmall.inj herror
      have hlen : (s.holding input).pending.length = s.pending.length + input.length :=
        List.length_append
      refine ⟨hshort, rfl, ⟨fun hsame => ?_, ?_⟩,
        fun more room' => update_holding input more room' ⟨width, some s⟩,
        finish_of_refused width (by rw [hlen]; exact hneed ▸ Nat.zero_lt_of_lt hshort)⟩
      · have hstate : s.holding input = s := by simpa using hsame
        have hnone := congrArg (·.pending.length) hstate
        simp only [hlen] at hnone
        exact List.length_eq_zero_iff.mp (by omega)
      · rintro rfl
        rw [s.holding_nil]

/-- **How an engine stands after any calls whatever**, refused ones among them: it holds back a
block at most and the pieces of the refused updates behind it.  An update that is refused then is
delayed, not undone; and room for its piece and all those pieces together is enough.  Where no
update was refused, that is the room the engine publishes, and no more than a block is pending. -/
theorem refused_update_is_delayed (width : KeyWidth) (calls : List Call) :
    Holds (heldAfter calls (new width) []) (after calls (new width)) ∧
      (after calls (new width)).pending ≤
        blockWidth + (heldAfter calls (new width) []).length ∧
      (∀ input room need room' e',
        update input room (after calls (new width)) = .error (.outputTooSmall need room') e' →
          Refusal (after calls (new width)) input need room e') ∧
      ∀ input room, updateOutput ((heldAfter calls (new width) []).length + input.length) ≤ room →
        ∀ need room' e',
          update input room (after calls (new width)) ≠ .error (.outputTooSmall need room') e' := by
  have h : Holds (heldAfter calls (new width) []) (after calls (new width)) :=
    Holds.calls (.unkeyed width rfl) calls
  exact ⟨h, h.pending_le, fun _ _ _ _ _ => refusal, fun _ _ => h.update_of_room⟩

/-- A block and no room for it, right after keying. -/
theorem refused_update_is_delayed_one_block :
    ∃ e e', after [.init .encrypt (Bytes.zeros 16) (Bytes.zeros 16)] (new .aes128) = e ∧
      update (Bytes.zeros 16) 0 e = .error (.outputTooSmall 16 0) e' ∧
      Refusal e (Bytes.zeros 16) 16 0 e' :=
  ⟨_, _, rfl, rfl, (refused_update_is_delayed .aes128
    [.init .encrypt (Bytes.zeros 16) (Bytes.zeros 16)]).2.2.1 (Bytes.zeros 16) 0 16 0 _ rfl⟩

/-- **A refused update does change the engine.**  The same block is refused for want of room, and
refused again with the room that is published for it, and then even an update with nothing in it is
refused with the room that is published for that: two blocks are pending. -/
theorem refused_update_changes_engine :
    (¬∀ (width : KeyWidth) (calls : List Call) (input : Bytes) (room need room' : Nat)
        (e' : CbcEngine),
      update input room (after calls (new width)) = .error (.outputTooSmall need room') e' →
        e' = after calls (new width)) ∧
      ∃ e e', after [.init .encrypt (Bytes.zeros 16) (Bytes.zeros 16), .update (Bytes.zeros 16) 0,
          .update (Bytes.zeros 16) 16] (new .aes128) = e ∧
        e.pending = 32 ∧ update [] (updateOutput 0) e = .error (.outputTooSmall 32 16) e' := by
  constructor
  · intro h
    have hsame := h .aes128 [.init .encrypt (Bytes.zeros 16) (Bytes.zeros 16)] (Bytes.zeros 16)
      0 16 0 _ rfl
    have hpending := congrArg pending hsame
    revert hpending
    decide
  · exact ⟨_, _, rfl, rfl, rfl⟩

end Envelope.CbcEngine

/-
# However a message is cut

A caller that does not have the whole message at hand gives it to an engine piece by piece, and asks
the engine before every call how much room to offer.  What it has in the end is what it would have
had with the whole message at once: the same bytes, the same failure if there is one, and the same
engine (`give_eq_giveWhole`).  No call is refused for want of room on the way.

A caller need not ask.  `give` lets it offer any room at all, and then there is one thing more that
can happen: a call is refused (`give_cases`).  So "fed with room enough" can be said in two ways,
with at least the room that is asked for, or with whatever room no call was refused for; `ComesTo`
says both.
-/
import Envelope.Proofs.Engine

namespace Envelope.Engine

/-! ## 1. A message in pieces -/

/-- A piece of a message, and the room that is offered for what comes out for it.  The caller may
ask the engine first. -/
structure Piece where
  bytes : Bytes
  room : Engine → Nat

/-- A piece with the room that is asked for, no more and no less. -/
def Piece.asked (bytes : Bytes) : Piece := ⟨bytes, updateOutput bytes.length⟩

/-- A piece with the room that is asked for, or more. -/
def Piece.Ample (p : Piece) : Prop := ∀ e, updateOutput p.bytes.length e ≤ p.room e

/-- The message that pieces make up. -/
def message (pieces : List Piece) : Bytes := (pieces.map (·.bytes)).flatten

/-- What a caller has when a message has ended, or a call has failed. -/
structure Outcome where
  /-- What came out of the calls, in order. -/
  out : Bytes
  failed : Option EngineError
  left : Engine

namespace Outcome

/-- What was made of the message, if no call failed. -/
def result (o : Outcome) : Except EngineError Bytes :=
  match o.failed with
  | none => .ok o.out
  | some err => .error err

/-- The outcome with something that came out before. -/
def behind (front : Bytes) (o : Outcome) : Outcome := { o with out := front ++ o.out }

/-- The outcome of one call. -/
def ofCall : EStateM.Result EngineError Engine Bytes → Outcome
  | .ok out e => ⟨out, none, e⟩
  | .error err e => ⟨[], some err, e⟩

/-- A call was refused for want of room. -/
def Refused (o : Outcome) : Prop := ∃ need room, o.failed = some (.outputTooSmall need room)

theorem behind_behind (a b : Bytes) (o : Outcome) : (o.behind b).behind a = o.behind (a ++ b) := by
  simp only [behind, List.append_assoc]

end Outcome

/-- **A message given piece by piece**, and finished with the room `rest`.  The first call that
fails is the last. -/
def give (rest : Engine → Nat) : List Piece → Engine → Outcome
  | [], e => .ofCall (e.finish (rest e))
  | p :: ps, e =>
    match e.update p.bytes (p.room e) with
    | .ok front e => (give rest ps e).behind front
    | .error err e => ⟨[], some err, e⟩

/-- **A message given at once**, into one buffer of the size that is asked for. -/
def giveWhole (d : Bytes) (e : Engine) : Outcome :=
  let room := e.maxOutput d.length
  match e.update d room with
  | .ok front e => (Outcome.ofCall (e.finish (room - front.length))).behind front
  | .error err e => ⟨[], some err, e⟩

theorem message_asked (pieces : List Bytes) : message (pieces.map .asked) = pieces.flatten := by
  have hbytes : (fun p : Piece => p.bytes) ∘ Piece.asked = id := rfl
  rw [message, List.map_map, hbytes, List.map_id]

theorem Piece.ample_asked (bytes : Bytes) : (asked bytes).Ample := fun _ => Nat.le_refl _

/-! ## 2. With room enough -/

/-- **What a message comes to** if every call has room enough. -/
def outcome (d : Bytes) (e : Engine) : Outcome :=
  let last : Outcome := match (e.feed d).2.close with
    | .ok back => ⟨back, none, e.spent⟩
    | .error err => ⟨[], some err, e.spent⟩
  last.behind (e.feed d).1

variable {e : Engine}

@[simp] theorem result_outcome (e : Engine) (d : Bytes) : (e.outcome d).result = e.whole d := by
  unfold outcome whole
  cases (e.feed d).2.close <;> rfl

/-- A message can be given in two parts. -/
theorem outcome_append (e : Engine) (a b : Bytes) :
    e.outcome (a ++ b) = ((e.feed a).2.outcome b).behind (e.feed a).1 := by
  simp only [outcome, feed_append, spent_feed, Outcome.behind_behind]

/-- Nothing more of the message: a finish. -/
theorem ofCall_finish (h : e.Settled) {room : Nat} (hr : e.finishOutput ≤ room) :
    .ofCall (e.finish room) = e.outcome [] := by
  rw [finish_eq_close h hr, outcome, feed_nil h]
  cases e.close <;> rfl

/-- **With room enough for every call, the pieces come to what their message comes to.** -/
theorem give_of_ample (h : e.Settled) {pieces : List Piece} (hps : ∀ p ∈ pieces, p.Ample)
    {rest : Engine → Nat} (hr : ∀ e, finishOutput e ≤ rest e) :
    e.give rest pieces = e.outcome (message pieces) := by
  -- over the pieces, for every engine: a feed leaves a settled engine, and to such a one the room
  -- that is asked for is always enough
  induction pieces generalizing e with
  | nil => exact ofCall_finish h (hr e)
  | cons p ps ih =>
    have hroom : (e.feed p.bytes).1.length ≤ p.room e :=
      Nat.le_trans (room_piece h (Nat.le_refl _)) (hps p List.mem_cons_self e)
    have hrest := ih (settled_feed h p.bytes) fun q hq => hps q (List.mem_cons_of_mem p hq)
    have hmessage : message (p :: ps) = p.bytes ++ message ps := rfl
    simp only [give, update_of_room h hroom]
    rw [hrest, hmessage, outcome_append]

/-- **At once, a message comes to the same.** -/
theorem giveWhole_eq_outcome (h : e.Settled) (d : Bytes) : e.giveWhole d = e.outcome d := by
  have hroom := room_whole h d
  have hsettled := settled_feed h d
  have hlast : .ofCall ((e.feed d).2.finish (e.maxOutput d.length - (e.feed d).1.length)) =
      (e.feed d).2.outcome [] := ofCall_finish hsettled (by omega)
  have happend := outcome_append e d []
  rw [List.append_nil] at happend
  have hfits : (e.feed d).1.length ≤ e.maxOutput d.length := by omega
  simp only [giveWhole, update_of_room h hfits]
  rw [hlast, happend]

/-- The end of a message does not want for room. -/
theorem close_ne_outputTooSmall (e : Engine) (need room : Nat) :
    e.close ≠ .error (.outputTooSmall need room) := by
  intro h
  obtain ⟨cipher, _ | s⟩ | ⟨width, _ | s⟩ := e
  · simp [close] at h
  · simp only [close, Aead.State.transform] at h
    repeat' split at h
    all_goals simp at h
  · simp [close] at h
  · exact s.close_ne_outputTooSmall need room h

theorem not_refused_outcome (e : Engine) (d : Bytes) : ¬(e.outcome d).Refused := by
  rintro ⟨need, room, h⟩
  unfold outcome at h
  cases hclose : (e.feed d).2.close with
  | ok back => simp [hclose, Outcome.behind] at h
  | error err =>
    simp only [hclose, Outcome.behind, Option.some.injEq] at h
    exact close_ne_outputTooSmall _ need room (hclose.trans (congrArg _ h))

/-- **However a message is cut, it comes to the same.**  An engine of any suite, in whatever state
it is, keyed in either direction with a key and a nonce of the right length, is given a message in
pieces, empty ones among them, each with exactly the room that is asked for, and finished with
exactly the room that is asked for.  What comes out, how it ends and what engine is left are as for
the whole message at once, and no call is refused for want of room. -/
theorem give_eq_giveWhole {direction : Direction} {key : Key} {nonce aad : Bytes}
    (hk : key.bytes.length = e.suite.keyWidth) (hn : nonce.length = e.suite.nonceWidth) :
    ∃ keyed, e.init direction key nonce aad = .ok () keyed ∧
      ∀ pieces : List Bytes,
        keyed.give finishOutput (pieces.map .asked) = keyed.giveWhole pieces.flatten ∧
          ¬(keyed.give finishOutput (pieces.map .asked)).Refused := by
  obtain ⟨keyed, hkeyed⟩ := exists_keyFor.mpr ⟨hk, hn⟩
  have hsettled := settled_keyFor hkeyed
  refine ⟨keyed, keyFor_eq_ok.mp hkeyed, fun pieces => ?_⟩
  have hample : ∀ p ∈ pieces.map Piece.asked, p.Ample := by
    intro p hp
    obtain ⟨bytes, -, rfl⟩ := List.mem_map.mp hp
    exact Piece.ample_asked bytes
  have hgive : keyed.give finishOutput (pieces.map .asked) = keyed.outcome pieces.flatten := by
    rw [give_of_ample hsettled hample fun _ => Nat.le_refl _, message_asked]
  rw [hgive]
  exact ⟨(giveWhole_eq_outcome hsettled _).symm, not_refused_outcome keyed _⟩

/-- A message of three bytes, one at a time with nothing in between, which is no body: deciphering
it fails at the end, with its length. -/
theorem give_eq_giveWhole_three_bytes :
    ∃ keyed, init .decrypt ⟨Bytes.zeros 16⟩ (Bytes.zeros 16) [] (Suite.engine .aes128CbcPkcs7) =
        .ok () keyed ∧
      keyed.give finishOutput ([[1], [], [2], [3]].map .asked) = keyed.giveWhole [1, 2, 3] ∧
      (keyed.giveWhole [1, 2, 3]).failed = some (.invalidCiphertextLength 3) := by
  obtain ⟨keyed, hkeyed, h⟩ := @give_eq_giveWhole (Suite.engine .aes128CbcPkcs7) .decrypt
    ⟨Bytes.zeros 16⟩ (Bytes.zeros 16) [] rfl rfl
  refine ⟨keyed, hkeyed, (h [[1], [], [2], [3]]).1, ?_⟩
  obtain ⟨-, rfl⟩ := EStateM.Result.ok.inj hkeyed
  rfl

/-! ## 3. With any room -/

/-- An update is a feed, or is refused. -/
theorem update_cases (h : e.Settled) (input : Bytes) (room : Nat) :
    e.update input room = .ok (e.feed input).1 (e.feed input).2 ∨
      ∃ need after, e.update input room = .error (.outputTooSmall need room) after := by
  cases h with
  | aead cipher s =>
    exact .inl (update_of_room (.aead cipher s) (Nat.zero_le room))
  | cbc width s h =>
    rcases CbcEngine.update_cases width s input room with hfeed | ⟨need, -, -, hrefused⟩
    · exact .inl (by simp only [update, lift, feed, hfeed])
    · refine .inr ⟨need, .cbc ⟨width, some (s.holding input)⟩, ?_⟩
      simp only [update, lift, hrefused]

/-- A finish is a close, or is refused. -/
theorem finish_cases (h : e.Settled) (room : Nat) :
    .ofCall (e.finish room) = e.outcome [] ∨ (Outcome.ofCall (e.finish room)).Refused := by
  rw [outcome, feed_nil h]
  cases h with
  | aead cipher s =>
    simp only [finish, lift, close, spent, AeadEngine.finish]
    cases Aead.State.transform cipher s with
    | error err => exact .inl rfl
    | ok out =>
      by_cases hroom : room < out.length
      · exact .inr ⟨out.length, room, by simp only [if_pos hroom, Outcome.ofCall]⟩
      · exact .inl (by simp only [if_neg hroom, Outcome.ofCall, Outcome.behind, List.nil_append])
  | cbc width s h =>
    simp only [finish, lift, close, spent]
    rcases CbcEngine.finish_cases width s room with hclose | ⟨need, -, -, hrefused⟩
    · rw [hclose]
      left
      cases s.close <;> rfl
    · rw [hrefused]
      exact .inr ⟨need, room, rfl⟩

/-- **With any room, the pieces come to what their message comes to, or a call is refused.** -/
theorem give_cases (h : e.Settled) (rest : Engine → Nat) (pieces : List Piece) :
    e.give rest pieces = e.outcome (message pieces) ∨ (e.give rest pieces).Refused := by
  induction pieces generalizing e with
  | nil => exact finish_cases h (rest e)
  | cons p ps ih =>
    have hmessage : message (p :: ps) = p.bytes ++ message ps := rfl
    rcases update_cases h p.bytes (p.room e) with hfeed | ⟨need, after, hrefused⟩
    · simp only [give, hfeed]
      rcases ih (settled_feed h p.bytes) with hrest | hrest
      · left
        rw [hrest, hmessage, outcome_append]
      · exact .inr hrest
    · simp only [give, hrefused]
      exact .inr ⟨need, p.room e, rfl⟩

/-! ## 4. What a message comes to -/

/-- **Fed with room enough, the message comes to this**, however it is cut. -/
structure ComesTo (keyed : Engine) (d : Bytes) (result : Except EngineError Bytes) : Prop where
  /-- Enough is the room that is asked for, or more. -/
  ample : ∀ (pieces : List Piece) (rest : Engine → Nat), message pieces = d →
    (∀ p ∈ pieces, p.Ample) → (∀ e, finishOutput e ≤ rest e) →
      (keyed.give rest pieces).result = result
  /-- Enough is any room that no call is refused for. -/
  unrefused : ∀ (pieces : List Piece) (rest : Engine → Nat), message pieces = d →
    ¬(keyed.give rest pieces).Refused → (keyed.give rest pieces).result = result

/-- **What a message comes to is one thing.** -/
theorem comesTo_iff (h : e.Settled) {d : Bytes} {result : Except EngineError Bytes} :
    e.ComesTo d result ↔ e.whole d = result := by
  constructor
  · intro hcomes
    have hmessage : message [.asked d] = d := (message_asked [d]).trans (List.append_nil d)
    have hample : ∀ p ∈ [Piece.asked d], p.Ample := by simpa using Piece.ample_asked d
    have hgive := hcomes.ample [.asked d] finishOutput hmessage hample fun _ => Nat.le_refl _
    rw [← hgive, give_of_ample h hample fun _ => Nat.le_refl _, hmessage, result_outcome]
  · rintro rfl
    refine ⟨fun pieces rest hd hps hr => ?_, fun pieces rest hd hrefused => ?_⟩
    · rw [give_of_ample h hps hr, hd, result_outcome]
    · rcases give_cases h rest pieces with hgive | hgive
      · rw [hgive, hd, result_outcome]
      · exact absurd hgive hrefused

end Envelope.Engine

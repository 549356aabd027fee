/-
# Cipher block chaining does not depend on the pieces

An engine that is fed a message in pieces must give out what it would for the whole.  Here this is a
law of two total functions.  `State.feed` is what an update does when there is room enough, and
`State.close` what a finish does; the engine's own calls are these two with a check of room before
them (`update_eq_feed`, `finish_eq_close`).

* `feed_append` is the law.  It needs two facts only: a chain of blocks can be cut anywhere
  (`chain_append`), and the number of bytes that can be given out adds up (`ready_add`), since what
  is held back is less than a block, or a block at most while deciphering.
* The room that the engine publishes is enough, for a whole message exactly (`room_whole`) and for a
  piece while no more is pending than a feed leaves (`Settled`, `room_piece`).  Without room enough
  a call is refused, and that is all that can happen instead (`update_cases`, `finish_cases`).
-/
import Envelope.Proofs.Bytes
import Envelope.Engine.Cbc

namespace Envelope.Cbc

/-! ## 1. Chains and blocks -/

theorem chainEncrypt_append (keys : Aes.RoundKeys) (previous : Block) (xs ys : List Block) :
    chainEncrypt keys previous (xs ++ ys) =
      ((chainEncrypt keys previous xs).1 ++
          (chainEncrypt keys (chainEncrypt keys previous xs).2 ys).1,
        (chainEncrypt keys (chainEncrypt keys previous xs).2 ys).2) := by
  induction xs generalizing previous with
  | nil => rfl
  | cons x xs ih => simp only [List.cons_append, chainEncrypt, ih]

theorem chainDecrypt_append (keys : Aes.RoundKeys) (previous : Block) (xs ys : List Block) :
    chainDecrypt keys previous (xs ++ ys) =
      ((chainDecrypt keys previous xs).1 ++
          (chainDecrypt keys (chainDecrypt keys previous xs).2 ys).1,
        (chainDecrypt keys (chainDecrypt keys previous xs).2 ys).2) := by
  induction xs generalizing previous with
  | nil => rfl
  | cons x xs ih => simp only [List.cons_append, chainDecrypt, ih]

namespace State

/-- The state behind some blocks, with these bytes pending. -/
def behind (s : State) (blocks : List Block) (pending : Bytes) : State :=
  { s with previous := (s.chain blocks).2, pending }

/-- **A chain can be cut anywhere.** -/
theorem chain_append (s : State) (xs ys : List Block) (pending : Bytes) :
    s.chain (xs ++ ys) =
      ((s.chain xs).1 ++ ((s.behind xs pending).chain ys).1,
        ((s.behind xs pending).chain ys).2) := by
  obtain ⟨direction, keys, previous, held⟩ := s
  cases direction with
  | encrypt => exact chainEncrypt_append keys previous xs ys
  | decrypt => exact chainDecrypt_append keys previous xs ys

theorem behind_behind (s : State) (xs ys : List Block) (p q : Bytes) :
    (s.behind xs p).behind ys q = s.behind (xs ++ ys) q := by
  simp only [s.chain_append xs ys p, behind]

@[simp] theorem length_chain (s : State) (xs : List Block) : (s.chain xs).1.length = xs.length := by
  obtain ⟨direction, keys, previous, held⟩ := s
  cases direction with
  | encrypt =>
    simp only [chain]
    induction xs generalizing previous with
    | nil => rfl
    | cons x xs ih => simp only [chainEncrypt, List.length_cons, ih]
  | decrypt =>
    simp only [chain]
    induction xs generalizing previous with
    | nil => rfl
    | cons x xs ih => simp only [chainDecrypt, List.length_cons, ih]

theorem chain_nil (s : State) : s.chain [] = ([], s.previous) := by
  obtain ⟨direction, keys, previous, held⟩ := s
  cases direction <;> rfl

end State

@[simp] theorem bytesOf_append (xs ys : List Block) :
    bytesOf (xs ++ ys) = bytesOf xs ++ bytesOf ys :=
  List.flatMap_append

@[simp] theorem length_bytesOf (xs : List Block) : (bytesOf xs).length = 16 * xs.length :=
  Bytes.length_flatMap Block.length_toBytes xs

/-- **Whole blocks are cut from a message and put together again.** -/
theorem bytesOf_ofMessage : ∀ (n : Nat) (a : Bytes), a.length = 16 * n →
    bytesOf (Block.ofMessage a) = a
  | 0, a, h => by
    obtain rfl : a = [] := List.length_eq_zero_iff.mp (by simpa using h)
    rw [Block.ofMessage_nil]
    rfl
  | n + 1, a, h => by
    have hfront : (a.take 16).length = 16 := by rw [List.length_take]; omega
    have hback : (a.drop 16).length = 16 * n := by rw [List.length_drop]; omega
    have hblock : (Block.ofBytes (a.take 16)).toBytes = a.take 16 := Block.toBytes_ofBytes hfront
    have ha : a = (Block.ofBytes (a.take 16)).toBytes ++ a.drop 16 := by
      rw [hblock, List.take_append_drop]
    calc bytesOf (Block.ofMessage a)
        = bytesOf (Block.ofMessage ((Block.ofBytes (a.take 16)).toBytes ++ a.drop 16)) := by
          rw [← ha]
      _ = (Block.ofBytes (a.take 16)).toBytes ++ bytesOf (Block.ofMessage (a.drop 16)) := by
          rw [Block.ofMessage_cons, bytesOf, List.flatMap_cons, bytesOf]
      _ = (Block.ofBytes (a.take 16)).toBytes ++ a.drop 16 := by rw [bytesOf_ofMessage n _ hback]
      _ = a := ha.symm

theorem length_ofMessage {a : Bytes} (h : a.length % 16 = 0) :
    16 * (Block.ofMessage a).length = a.length := by
  rw [← length_bytesOf, bytesOf_ofMessage (a.length / 16) a (by omega)]

/-! ## 2. What can be given out -/

theorem ready_le (d : Direction) (n : Nat) : ready d n ≤ n := by
  cases d <;> simp only [ready, blockWidth] <;> omega

theorem ready_mod (d : Direction) (n : Nat) : ready d n % 16 = 0 := by
  cases d <;> simp only [ready, blockWidth] <;> omega

/-- **What can be given out adds up**, whatever is held back in between. -/
theorem ready_add (d : Direction) (m n : Nat) :
    ready d (m + n) = ready d m + ready d (m - ready d m + n) := by
  cases d <;> simp only [ready, blockWidth] <;> omega

/-! ## 3. Feeding -/

namespace State

/-- **What an update does when there is room enough**: the blocks that can be given out, and the
state behind them. -/
def feed (s : State) (input : Bytes) : Bytes × State :=
  let all := s.pending ++ input
  let front := Block.ofMessage (all.take (ready s.direction all.length))
  (bytesOf (s.chain front).1, s.behind front (all.drop (ready s.direction all.length)))

theorem length_feed (s : State) (input : Bytes) :
    (s.feed input).1.length = ready s.direction (s.pending.length + input.length) := by
  have hle := ready_le s.direction (s.pending ++ input).length
  have hmod := ready_mod s.direction (s.pending ++ input).length
  have hfront : ((s.pending ++ input).take (ready s.direction (s.pending ++ input).length)).length =
      ready s.direction (s.pending ++ input).length := by
    rw [List.length_take]
    omega
  rw [feed, length_bytesOf, length_chain, length_ofMessage (by rw [hfront, hmod]), hfront,
    List.length_append]

theorem length_pending_feed (s : State) (input : Bytes) :
    (s.feed input).2.pending.length =
      s.pending.length + input.length - ready s.direction (s.pending.length + input.length) := by
  simp only [feed, behind, List.length_drop, List.length_append]

@[simp] theorem direction_feed (s : State) (input : Bytes) :
    (s.feed input).2.direction = s.direction := rfl

/-- **Feeding a message in two pieces gives out the same as feeding it whole**, and leaves the same
behind. -/
theorem feed_append (s : State) (a b : Bytes) :
    s.feed (a ++ b) = ((s.feed a).1 ++ ((s.feed a).2.feed b).1, ((s.feed a).2.feed b).2) := by
  obtain ⟨all, hall⟩ : ∃ all, all = s.pending ++ a := ⟨_, rfl⟩
  obtain ⟨m, hm⟩ : ∃ m, m = ready s.direction all.length := ⟨_, rfl⟩
  have hle : m ≤ all.length := by rw [hm]; exact ready_le _ _
  have hmod : m % 16 = 0 := by rw [hm]; exact ready_mod _ _
  obtain ⟨n, hn⟩ : ∃ n, n = ready s.direction (all.drop m ++ b).length := ⟨_, rfl⟩
  have hsum : ready s.direction (all ++ b).length = m + n := by
    rw [List.length_append, ready_add, ← hm, hn, List.length_append, List.length_drop]
  -- the front of the whole is the front of the first piece, then the front of what is left with it
  have hfront : (all ++ b).take (m + n) = all.take m ++ (all.drop m ++ b).take n := by
    rw [List.take_add, List.take_append_of_le_length hle, List.drop_append_of_le_length hle]
  have hback : (all ++ b).drop (m + n) = (all.drop m ++ b).drop n := by
    rw [← List.drop_drop, List.drop_append_of_le_length hle]
  have hblocks : Block.ofMessage ((all ++ b).take (m + n)) =
      Block.ofMessage (all.take m) ++ Block.ofMessage ((all.drop m ++ b).take n) := by
    rw [hfront, Block.ofMessage_append (by rw [List.length_take]; omega)]
  have ha : s.feed a = (bytesOf (s.chain (Block.ofMessage (all.take m))).1,
      s.behind (Block.ofMessage (all.take m)) (all.drop m)) := by
    rw [hm, hall]
    rfl
  have hb : (s.feed a).2.feed b =
      (bytesOf ((s.feed a).2.chain (Block.ofMessage ((all.drop m ++ b).take n))).1,
        (s.feed a).2.behind (Block.ofMessage ((all.drop m ++ b).take n))
          ((all.drop m ++ b).drop n)) := by
    rw [hn, ha]
    rfl
  have hab : s.feed (a ++ b) =
      (bytesOf (s.chain (Block.ofMessage ((all ++ b).take (m + n)))).1,
        s.behind (Block.ofMessage ((all ++ b).take (m + n))) ((all ++ b).drop (m + n))) := by
    rw [← hsum, hall, List.append_assoc]
    rfl
  rw [hab, hb, ha, hblocks, hback, behind_behind,
    s.chain_append _ _ (all.drop m), bytesOf_append]

/-- **No more is pending than a feed leaves**: less than a block, or a block at most while
deciphering. -/
def Settled (s : State) : Prop :=
  match s.direction with
  | .encrypt => s.pending.length < blockWidth
  | .decrypt => s.pending.length ≤ blockWidth

/-- A keyed engine is settled to begin with. -/
theorem settled_of_nil {s : State} (h : s.pending = []) : s.Settled := by
  unfold Settled
  rw [h]
  cases s.direction <;> decide

theorem settled_feed (s : State) (input : Bytes) : (s.feed input).2.Settled := by
  have h := s.length_pending_feed input
  unfold Settled
  rw [s.direction_feed input]
  cases hd : s.direction with
  | encrypt => simp only [hd, ready, blockWidth] at h ⊢; omega
  | decrypt => simp only [hd, ready, blockWidth] at h ⊢; omega

/-- Feeding nothing gives nothing out. -/
theorem feed_nil {s : State} (h : s.Settled) : s.feed [] = ([], s) := by
  have hready : ready s.direction s.pending.length = 0 := by
    unfold Settled at h
    cases hd : s.direction with
    | encrypt => simp only [hd, ready, blockWidth] at h ⊢; omega
    | decrypt => simp only [hd, ready, blockWidth] at h ⊢; omega
  rw [feed, List.append_nil, hready, List.take_zero, List.drop_zero, Block.ofMessage_nil, behind,
    chain_nil]
  rfl

/-- The state with more pending. -/
def holding (s : State) (more : Bytes) : State :=
  { s with pending := s.pending ++ more }

theorem holding_nil (s : State) : s.holding [] = s := by
  rw [holding, List.append_nil]

theorem holding_holding (s : State) (a b : Bytes) :
    (s.holding a).holding b = s.holding (a ++ b) := by
  simp only [holding, List.append_assoc]

/-- What is pending and what is fed next are not told apart. -/
theorem feed_holding (s : State) (a b : Bytes) : (s.holding a).feed b = s.feed (a ++ b) := by
  simp only [feed, holding, List.append_assoc]
  rfl

/-! ## 4. Closing -/

/-- **What a finish does when there is room enough.** -/
def close (s : State) : Except EngineError Bytes :=
  match s.direction with
  | .encrypt => CbcEngine.lastEncrypted s blockWidth
  | .decrypt => CbcEngine.lastDecrypted s blockWidth

end State

/-- What is stripped of its padding is not longer. -/
theorem length_of_strip? {padded plain : Bytes} (h : Padding.strip? padded = some plain) :
    plain.length ≤ padded.length := by
  simp only [Padding.strip?] at h
  split at h
  · obtain rfl := Option.some.inj h
    rw [List.length_take]
    omega
  · simp at h

/-- The last block without its padding is not longer than a block. -/
theorem State.length_of_last {s : State} (hwidth : s.pending.length = blockWidth) {plain : Bytes}
    (h : Padding.strip? (bytesOf (s.chain (Block.ofMessage s.pending)).1) = some plain) :
    plain.length ≤ blockWidth := by
  have hlen := length_of_strip? h
  rwa [length_bytesOf, State.length_chain, length_ofMessage (by rw [hwidth]; rfl), hwidth] at hlen

/-- **The end of a body fails for its length or for its padding**, and not for want of room. -/
theorem State.close_eq_error {s : State} (hd : s.direction = .decrypt) {err : EngineError}
    (h : s.close = .error err) :
    err = .invalidCiphertextLength s.pending.length ∨ err = .badPadding := by
  rw [State.close, hd] at h
  simp only [CbcEngine.lastDecrypted] at h
  split at h
  · obtain rfl := Except.error.inj h
    exact Or.inl rfl
  · rename_i hwidth
    rw [not_not] at hwidth
    cases hstrip : Padding.strip? (bytesOf (s.chain (Block.ofMessage s.pending)).1) with
    | none =>
      simp only [hstrip] at h
      obtain rfl := Except.error.inj h
      exact Or.inr rfl
    | some plain =>
      have hlen := State.length_of_last hwidth hstrip
      simp only [hstrip] at h
      rw [if_neg (Nat.not_lt.mpr hlen)] at h
      simp at h

/-- The end of a message does not want for room. -/
theorem State.close_ne_outputTooSmall (s : State) (need room : Nat) :
    s.close ≠ .error (.outputTooSmall need room) := by
  intro h
  cases hd : s.direction with
  | encrypt =>
    rw [State.close, hd] at h
    simp only [CbcEngine.lastEncrypted] at h
    rw [if_neg (Nat.lt_irrefl _)] at h
    split at h <;> simp at h
  | decrypt => rcases State.close_eq_error hd h with h | h <;> simp at h

end Envelope.Cbc

namespace Envelope.CbcEngine

open Cbc

/-! ## 5. The engine's calls -/

variable {width : KeyWidth} {s : Cbc.State}

/-- **An update with room enough is a feed.** -/
theorem update_eq_feed {input : Bytes} {room : Nat} (h : (s.feed input).1.length ≤ room) :
    update input room ⟨width, some s⟩ = .ok (s.feed input).1 ⟨width, some (s.feed input).2⟩ := by
  rw [State.length_feed, ← List.length_append] at h
  unfold update
  simp only
  split
  · rename_i hzero
    rw [State.feed, hzero, List.take_zero, List.drop_zero, Block.ofMessage_nil, State.behind,
      State.chain_nil]
    rfl
  · rw [if_neg (by omega)]
    rfl

/-- **An update without room enough takes the piece in all the same.** -/
theorem update_of_lt {input : Bytes} {room : Nat} (h : room < (s.feed input).1.length) :
    update input room ⟨width, some s⟩ =
      .error (.outputTooSmall (s.feed input).1.length room) ⟨width, some (s.holding input)⟩ := by
  rw [State.length_feed, ← List.length_append] at h ⊢
  unfold update
  simp only
  rw [if_neg (by omega), if_pos h]
  rfl

/-- **An update is a feed, or is refused** for want of room. -/
theorem update_cases (width : KeyWidth) (s : Cbc.State) (input : Bytes) (room : Nat) :
    update input room ⟨width, some s⟩ = .ok (s.feed input).1 ⟨width, some (s.feed input).2⟩ ∨
      ∃ need, room < need ∧ need = ready s.direction (s.pending.length + input.length) ∧
        update input room ⟨width, some s⟩ =
          .error (.outputTooSmall need room) ⟨width, some (s.holding input)⟩ := by
  rcases Nat.lt_or_ge room (s.feed input).1.length with hlt | hge
  · exact .inr ⟨_, hlt, s.length_feed input, update_of_lt hlt⟩
  · exact .inl (update_eq_feed hge)

/-- The last block of a message is given out, or is refused for want of room. -/
theorem lastEncrypted_cases (s : Cbc.State) (room : Nat) :
    lastEncrypted s room = lastEncrypted s blockWidth ∨
      room < blockWidth ∧ lastEncrypted s room = .error (.outputTooSmall blockWidth room) := by
  unfold lastEncrypted
  by_cases hfull : blockWidth ≤ s.pending.length
  · left
    simp only [if_pos hfull]
  · by_cases hroom : room < blockWidth
    · exact .inr ⟨hroom, by simp only [if_neg hfull, if_pos hroom]⟩
    · left
      simp only [if_neg hfull, if_neg hroom, if_neg (Nat.lt_irrefl _)]

/-- So is the last block of a body.  It needs no more room than it is long. -/
theorem lastDecrypted_cases (s : Cbc.State) (room : Nat) :
    lastDecrypted s room = lastDecrypted s blockWidth ∨
      ∃ need, room < need ∧ need ≤ s.pending.length ∧
        lastDecrypted s room = .error (.outputTooSmall need room) := by
  unfold lastDecrypted
  by_cases hwidth : s.pending.length = blockWidth
  · cases hstrip : Padding.strip? (bytesOf (s.chain (Block.ofMessage s.pending)).1) with
    | none => exact .inl rfl
    | some plain =>
      have hlen := State.length_of_last hwidth hstrip
      by_cases hroom : room < plain.length
      · refine .inr ⟨plain.length, hroom, hwidth ▸ hlen, ?_⟩
        simp only [if_neg (not_not.mpr hwidth), if_pos hroom]
      · left
        simp only [if_neg hroom, if_neg (Nat.not_lt.mpr hlen)]
  · left
    simp only [if_pos hwidth]

/-- **A finish is a close, or is refused** for want of the room it asks for.  It leaves the engine
without a key either way. -/
theorem finish_cases (width : KeyWidth) (s : Cbc.State) (room : Nat) :
    (finish room ⟨width, some s⟩ =
      match s.close with
      | .ok out => .ok out ⟨width, none⟩
      | .error err => .error err ⟨width, none⟩) ∨
      ∃ need, room < need ∧ need ≤ finishOutput ⟨width, some s⟩ ∧
        finish room ⟨width, some s⟩ = .error (.outputTooSmall need room) ⟨width, none⟩ := by
  obtain ⟨direction, keys, previous, held⟩ := s
  cases direction with
  | encrypt =>
    rcases lastEncrypted_cases ⟨.encrypt, keys, previous, held⟩ room with hlast | ⟨hroom, hlast⟩
    · left
      cases hout : lastEncrypted ⟨.encrypt, keys, previous, held⟩ blockWidth <;>
        simp only [finish, State.close, hlast, hout]
    · exact .inr ⟨blockWidth, hroom, Nat.le_refl _, by simp only [finish, hlast]⟩
  | decrypt =>
    rcases lastDecrypted_cases ⟨.decrypt, keys, previous, held⟩ room with
      hlast | ⟨need, hroom, hneed, hlast⟩
    · left
      cases hout : lastDecrypted ⟨.decrypt, keys, previous, held⟩ blockWidth <;>
        simp only [finish, State.close, hlast, hout]
    · exact .inr ⟨need, hroom, hneed, by simp only [finish, hlast]⟩

/-- **A finish with room enough is a close.** -/
theorem finish_eq_close {room : Nat} (h : finishOutput ⟨width, some s⟩ ≤ room) :
    finish room ⟨width, some s⟩ =
      match s.close with
      | .ok out => .ok out ⟨width, none⟩
      | .error err => .error err ⟨width, none⟩ := by
  refine (finish_cases width s room).resolve_right ?_
  rintro ⟨need, hroom, hneed, -⟩
  exact absurd (Nat.le_trans hneed h) (Nat.not_le.mpr hroom)

/-! ## 6. The room is enough -/

/-- For a whole message: what comes out and what a finish then asks for is within `maxOutput`. -/
theorem room_whole (input : Bytes) :
    (s.feed input).1.length + finishOutput ⟨width, some (s.feed input).2⟩ ≤
      maxOutput ⟨width, some s⟩ input.length := by
  have hp := s.length_pending_feed input
  have hle := ready_le s.direction (s.pending.length + input.length)
  rw [s.length_feed]
  simp only [finishOutput, maxOutput, decrypts, Option.any_some, pending, Option.map_some,
    Option.getD_some, s.direction_feed, hp]
  obtain ⟨direction, keys, previous, held⟩ := s
  cases direction with
  | encrypt => simp [ready]
  | decrypt =>
    simp only [decide_true, if_true] at hle ⊢
    omega

/-- For a piece: what comes out is within `updateOutput` of the longest piece. -/
theorem room_piece (h : s.Settled) {input : Bytes} {size : Nat} (hs : input.length ≤ size) :
    (s.feed input).1.length ≤ updateOutput size := by
  rw [s.length_feed]
  unfold State.Settled at h
  cases hd : s.direction with
  | encrypt => simp only [hd, ready, updateOutput, blockWidth] at h ⊢; omega
  | decrypt => simp only [hd, ready, updateOutput, blockWidth] at h ⊢; omega

end Envelope.CbcEngine

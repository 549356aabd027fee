/-
# One message through an engine

Both kinds of engine are alike in one respect, and the library uses no other: between keying and the
end of a message an engine is a pair of total functions.  `feed` takes in a piece and gives out what
it can, `close` ends the message.  Feeding in pieces is feeding the whole (`feed_append`), so what a
message comes to is a function of the message alone, `whole`.

There are two ways to get there.  The whole message may be given to the engine at once, into as much
room as it asks for (`transform_eq_whole`); or it may be given piece by piece, each with room for
one piece, which is what a stream does (`update_eq_feed`, `finish_eq_close`).  The second needs the
engine to be `Settled`, as it is once keyed and after every piece.
-/
import Envelope.Proofs.Engine.Aead
import Envelope.Proofs.Engine.Cbc
import Envelope.Suite

namespace Envelope.Engine

/-! ## 1. The states of a keyed engine -/

/-- **An engine in the middle of a message**, which holds back no more than it must. -/
inductive Settled : Engine → Prop
  | aead (cipher : AeadCipher) (s : Aead.State) : Settled (.aead ⟨cipher, some s⟩)
  | cbc (width : Cbc.KeyWidth) (s : Cbc.State) (h : s.Settled) : Settled (.cbc ⟨width, some s⟩)

/-- **A piece of the message taken in**, and what is given out for it. -/
def feed (input : Bytes) : Engine → Bytes × Engine
  | .aead e => ([], .aead { e with state := e.state.map (·.feed input) })
  | .cbc e =>
    match e.state with
    | none => ([], .cbc e)
    | some s => ((s.feed input).1, .cbc { e with state := some (s.feed input).2 })

/-- **The end of the message.** -/
def close : Engine → Except EngineError Bytes
  | .aead e =>
    match e.state with
    | none => .error .notInitialized
    | some s => Aead.State.transform e.cipher s
  | .cbc e =>
    match e.state with
    | none => .error .notInitialized
    | some s => s.close

/-- The engine after the end of a message: it has no key. -/
def spent : Engine → Engine
  | .aead e => .aead { e with state := none }
  | .cbc e => .cbc { e with state := none }

/-- **What a whole message comes to.** -/
def whole (e : Engine) (d : Bytes) : Except EngineError Bytes :=
  (e.feed d).2.close.map ((e.feed d).1 ++ ·)

variable {e : Engine}

theorem feed_append (e : Engine) (a b : Bytes) :
    e.feed (a ++ b) = ((e.feed a).1 ++ ((e.feed a).2.feed b).1, ((e.feed a).2.feed b).2) := by
  obtain ⟨cipher, _ | s⟩ | ⟨width, _ | s⟩ := e
  · rfl
  · simp only [feed, Option.map_some, Aead.State.feed_append, List.append_nil]
  · rfl
  · simp only [feed, Cbc.State.feed_append]

theorem feed_nil (h : e.Settled) : e.feed [] = ([], e) := by
  cases h with
  | aead cipher s => simp only [feed, Option.map_some, Aead.State.feed_nil]
  | cbc width s h => simp only [feed, Cbc.State.feed_nil h]

theorem settled_feed (h : e.Settled) (input : Bytes) : (e.feed input).2.Settled := by
  cases h with
  | aead cipher s => exact .aead cipher (s.feed input)
  | cbc width s h => exact .cbc width _ (s.settled_feed input)

@[simp] theorem spent_feed (e : Engine) (input : Bytes) : (e.feed input).2.spent = e.spent := by
  obtain ⟨cipher, _ | s⟩ | ⟨width, _ | s⟩ := e <;> rfl

/-! ## 2. Piece by piece -/

/-- The room for a piece does not change while the message goes on. -/
theorem updateOutput_feed (e : Engine) (input : Bytes) (size : Nat) :
    updateOutput size (e.feed input).2 = updateOutput size e := by
  obtain ⟨cipher, _ | s⟩ | ⟨width, _ | s⟩ := e <;> rfl

/-- **An update with room enough is a feed.** -/
theorem update_of_room (h : e.Settled) {input : Bytes} {room : Nat}
    (hr : (e.feed input).1.length ≤ room) :
    e.update input room = .ok (e.feed input).1 (e.feed input).2 := by
  cases h with
  | aead cipher s => simp only [update, lift, feed, Option.map_some, AeadEngine.update_eq_feed]
  | cbc width s h => simp only [update, lift, feed, CbcEngine.update_eq_feed hr]

/-- **The room that is asked for is enough for a piece.** -/
theorem room_piece (h : e.Settled) {input : Bytes} {size : Nat} (hs : input.length ≤ size) :
    (e.feed input).1.length ≤ e.updateOutput size := by
  cases h with
  | aead cipher s => exact Nat.zero_le _
  | cbc width s h => exact CbcEngine.room_piece h hs

/-- An update with room for a piece is a feed. -/
theorem update_eq_feed (h : e.Settled) {input : Bytes} {size : Nat} (hs : input.length ≤ size) :
    e.update input (e.updateOutput size) = .ok (e.feed input).1 (e.feed input).2 :=
  update_of_room h (room_piece h hs)

/-- **A finish with the room that is asked for is a close.** -/
theorem finish_eq_close (h : e.Settled) {room : Nat} (hr : e.finishOutput ≤ room) :
    e.finish room =
      match e.close with
      | .ok out => .ok out e.spent
      | .error err => .error err e.spent := by
  cases h with
  | aead cipher s =>
    simp only [finish, lift, close, spent, AeadEngine.finish_eq_transform hr]
    cases Aead.State.transform cipher s <;> rfl
  | cbc width s h =>
    simp only [finish, lift, close, spent, CbcEngine.finish_eq_close hr]
    cases s.close <;> rfl

/-! ## 3. All at once -/

/-- **The room that is asked for is enough for a whole message**, update and finish together. -/
theorem room_whole (h : e.Settled) (d : Bytes) :
    (e.feed d).1.length + (e.feed d).2.finishOutput ≤ e.maxOutput d.length := by
  cases h with
  | aead cipher s =>
    simp only [feed, finishOutput, maxOutput, Option.map_some, AeadEngine.room_whole]
    exact Nat.le_of_eq (Nat.zero_add _)
  | cbc width s h => exact CbcEngine.room_whole d

/-- **A whole message at once comes to `whole`.** -/
theorem transform_eq_whole (h : e.Settled) (d : Bytes) :
    e.transform d =
      match e.whole d with
      | .ok out => .ok out e.spent
      | .error err => .error (.ofEngine err) e.spent := by
  have hroom := room_whole h d
  have hupdate : e.update d (e.maxOutput d.length) = .ok (e.feed d).1 (e.feed d).2 :=
    update_of_room h (by omega)
  have hleft : (e.feed d).2.finishOutput ≤ e.maxOutput d.length - (e.feed d).1.length := by omega
  have hfinish := finish_eq_close (settled_feed h d) hleft
  unfold transform
  simp only [hupdate, hfinish, whole, spent_feed]
  cases (e.feed d).2.close <;> rfl

/-! ## 4. Keying -/

variable {direction : Direction} {key : Key} {nonce header : Bytes}

/-- What keying an authenticated engine takes, and what it leaves. -/
theorem keyFor_aead {cipher : AeadCipher} {state : Option Aead.State} {keyed : Engine} :
    keyFor direction key nonce header (.aead ⟨cipher, state⟩) = .ok () keyed ↔
      nonce.length = cipher.nonceWidth ∧ key.bytes.length = cipher.keyWidth ∧
        keyed = .aead ⟨cipher, some ⟨direction, key.bytes, nonce, header, []⟩⟩ := by
  unfold keyFor
  simp only [init, lift, AeadEngine.init]
  constructor
  · intro h
    split_ifs at h with hn hk
    obtain ⟨-, rfl⟩ := EStateM.Result.ok.inj h
    exact ⟨not_not.mp hn, not_not.mp hk, rfl⟩
  · rintro ⟨hn, hk, rfl⟩
    rw [if_neg (not_not.mpr hn), if_neg (not_not.mpr hk)]

/-- What keying an engine for cipher block chaining takes, and what it leaves. -/
theorem keyFor_cbc {width : Cbc.KeyWidth} {state : Option Cbc.State} {keyed : Engine} :
    keyFor direction key nonce header (.cbc ⟨width, state⟩) = .ok () keyed ↔
      key.bytes.length = width.bytes ∧ nonce.length = cbcNonce ∧
        keyed = .cbc ⟨width, some ⟨direction, Aes.expandKey key.bytes, .ofBytes nonce, []⟩⟩ := by
  unfold keyFor
  simp only [init, lift, CbcEngine.init]
  constructor
  · intro h
    split_ifs at h with hk hn
    obtain ⟨-, rfl⟩ := EStateM.Result.ok.inj h
    exact ⟨not_not.mp hk, not_not.mp hn, rfl⟩
  · rintro ⟨hk, hn, rfl⟩
    rw [if_neg (not_not.mpr hk), if_neg (not_not.mpr hn)]

/-- **Keying leaves the engine at the beginning of a message**, whatever it was used for before. -/
theorem settled_keyFor {e keyed : Engine}
    (h : keyFor direction key nonce header e = .ok () keyed) : keyed.Settled := by
  obtain ⟨cipher, state⟩ | ⟨width, state⟩ := e
  · obtain ⟨-, -, rfl⟩ := keyFor_aead.mp h
    exact .aead cipher _
  · obtain ⟨-, -, rfl⟩ := keyFor_cbc.mp h
    exact .cbc width _ (Cbc.State.settled_of_nil rfl)

/-- Keying for a message is keying. -/
theorem keyFor_eq_ok {e keyed : Engine} :
    keyFor direction key nonce header e = .ok () keyed ↔
      init direction key nonce header e = .ok () keyed := by
  unfold keyFor
  cases h : init direction key nonce header e with
  | ok a e' => simp
  | error err e' => cases err <;> simp

/-! ## 5. Suites -/

/-- The suite that an engine is of, in whatever state it is. -/
def suite : Engine → Suite
  | .aead e =>
    match e.cipher with
    | .aes128Gcm => .aes128Gcm
    | .aes256Gcm => .aes256Gcm
    | .chacha20Poly1305 => .chacha20Poly1305
    | .aes128Ccm => .aes128Ccm
    | .aes128Eax => .aes128Eax
  | .cbc e =>
    match e.width with
    | .aes128 => .aes128CbcPkcs7
    | .aes256 => .aes256CbcPkcs7

/-- **Only counter mode with CBC-MAC does not stream.** -/
theorem streams_eq_true {e : Engine} : e.streams = true ↔ e.suite ≠ .aes128Ccm := by
  obtain ⟨cipher, state⟩ | ⟨width, state⟩ := e
  · cases cipher <;> simp [streams, suite, AeadCipher.streams]
  · cases width <;> simp [streams, suite]

/-- An engine takes the nonces of its suite. -/
theorem nonceWidth_eq (e : Engine) : e.nonceWidth = e.suite.nonceWidth := by
  obtain ⟨cipher, state⟩ | ⟨width, state⟩ := e
  · cases cipher <;> rfl
  · cases width <;> rfl

theorem keyWidth_aead (e : AeadEngine) : (Engine.aead e).suite.keyWidth = e.cipher.keyWidth := by
  obtain ⟨cipher, state⟩ := e
  cases cipher <;> rfl

theorem keyWidth_cbc (e : CbcEngine) : (Engine.cbc e).suite.keyWidth = e.width.bytes := by
  obtain ⟨width, state⟩ := e
  cases width <;> rfl

/-- **An engine is keyed if key and nonce have the widths of its suite**, and only then. -/
theorem exists_keyFor {e : Engine} :
    (∃ keyed, keyFor direction key nonce header e = .ok () keyed) ↔
      key.bytes.length = e.suite.keyWidth ∧ nonce.length = e.suite.nonceWidth := by
  rw [← nonceWidth_eq]
  obtain ⟨cipher, state⟩ | ⟨width, state⟩ := e
  · rw [keyWidth_aead]
    constructor
    · rintro ⟨keyed, h⟩
      obtain ⟨hn, hk, -⟩ := keyFor_aead.mp h
      exact ⟨hk, hn⟩
    · rintro ⟨hk, hn⟩
      exact ⟨_, keyFor_aead.mpr ⟨hn, hk, rfl⟩⟩
  · rw [keyWidth_cbc]
    constructor
    · rintro ⟨keyed, h⟩
      obtain ⟨hk, hn, -⟩ := keyFor_cbc.mp h
      exact ⟨hk, hn⟩
    · rintro ⟨hk, hn⟩
      exact ⟨_, keyFor_cbc.mpr ⟨hk, hn, rfl⟩⟩

end Envelope.Engine

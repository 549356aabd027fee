/-
# Engines undo each other

A message that one engine has transformed is restored by another of the same kind that was keyed the
other way.  For the authenticated ciphers this is the law of masks and tags (`open?_seal?`).  For
cipher block chaining it takes a little more, because the two directions do not hold back the same:
enciphering closes with one block of padding, deciphering with the last block it has seen.  So the
message is split as enciphering splits it, into whole blocks and the rest (`encrypt_blocks`), and
deciphering is shown to come upon the same split (`decrypt_blocks`).
-/
import Envelope.Proofs.Aead
import Envelope.Proofs.Engine

namespace Envelope

/-! ## 1. Padding -/

@[simp] theorem Padding.length_after (n : Nat) : (after n).length = 16 - n % 16 := by
  simp only [after, List.length_replicate]

/-- **Padding comes off again.** -/
theorem Padding.strip?_append (m : Bytes) (n : Nat) : strip? (m ++ after n) = some m := by
  obtain ⟨r, hr⟩ : ∃ r, r = 16 - n % 16 := ⟨_, rfl⟩
  have hafter : after n = List.replicate r (UInt8.ofNat r) := by rw [hr, after]
  have hlast : (m ++ after n).getLastD 0 = UInt8.ofNat r := by
    obtain ⟨k, hk⟩ : ∃ k, r = k + 1 := ⟨r - 1, by omega⟩
    rw [hafter, hk, List.replicate_succ', ← List.append_assoc]
    simp
  have hvalue : ((m ++ after n).getLastD 0).toNat = r := by
    rw [hlast, UInt8.toNat_ofNat']
    omega
  have hfront : (m ++ after n).length - r = m.length := by
    rw [List.length_append, Padding.length_after, ← hr, Nat.add_sub_cancel]
  have hfits : r ≤ (m ++ after n).length := by
    rw [List.length_append, Padding.length_after, ← hr]
    omega
  simp only [strip?, hvalue, hfront]
  rw [List.drop_left, List.take_left, if_pos ⟨by omega, by omega, hfits, hafter⟩]

namespace Cbc

/-! ## 2. Chains -/

/-- **Deciphering a chain undoes enciphering it.** -/
theorem chainDecrypt_chainEncrypt (keys : Aes.RoundKeys) (previous : Block) (xs : List Block) :
    (chainDecrypt keys previous (chainEncrypt keys previous xs).1).1 = xs := by
  induction xs generalizing previous with
  | nil => rfl
  | cons x xs ih =>
    simp only [chainEncrypt, chainDecrypt, ih, Aes.decipher_encipher, Aes.xor_xor_block]

@[simp] theorem ofMessage_bytesOf (xs : List Block) : Block.ofMessage (bytesOf xs) = xs := by
  induction xs with
  | nil => exact Block.ofMessage_nil
  | cons x xs ih =>
    rw [bytesOf, List.flatMap_cons, Block.ofMessage_cons]
    rw [bytesOf] at ih
    rw [ih]

@[simp] theorem bytesOf_singleton (x : Block) : bytesOf [x] = x.toBytes := by
  rw [bytesOf, List.flatMap_singleton]

@[simp] theorem ofMessage_toBytes (x : Block) : Block.ofMessage x.toBytes = [x] := by
  rw [← bytesOf_singleton, ofMessage_bytesOf]

namespace State

variable {keys : Aes.RoundKeys} {iv : Block}

/-- **The last block of a body is what was left of the message, padded.** -/
theorem close_of_tail {s : State} {b : Block} (hd : s.direction = .encrypt)
    (hp : s.pending.length < blockWidth)
    (hb : b.toBytes = s.pending ++ Padding.after s.pending.length) :
    s.close = .ok (bytesOf (s.chain [b]).1) := by
  rw [close, hd]
  simp only [CbcEngine.lastEncrypted, ← hb, ofMessage_toBytes]
  rw [if_neg (Nat.not_le.mpr hp), if_neg (Nat.lt_irrefl _)]

/-- **What enciphering a message comes to**: a chain of its whole blocks and one more, which holds
what is left of it and the padding. -/
theorem encrypt_blocks (keys : Aes.RoundKeys) (iv : Block) (m : Bytes) :
    ∃ xs b tail out, m = bytesOf xs ++ tail ∧ b.toBytes = tail ++ Padding.after tail.length ∧
      (feed ⟨.encrypt, keys, iv, []⟩ m).2.close = .ok out ∧
      (feed ⟨.encrypt, keys, iv, []⟩ m).1 ++ out =
        bytesOf (chainEncrypt keys iv (xs ++ [b])).1 := by
  obtain ⟨s, hs⟩ : ∃ s : State, s = ⟨.encrypt, keys, iv, []⟩ := ⟨_, rfl⟩
  obtain ⟨n, hn⟩ : ∃ n, n = m.length / 16 * 16 := ⟨_, rfl⟩
  have hready : ready s.direction (s.pending ++ m).length = n := by rw [hs, hn]; rfl
  obtain ⟨xs, hxs⟩ : ∃ xs, xs = Block.ofMessage (m.take n) := ⟨_, rfl⟩
  obtain ⟨tail, htail⟩ : ∃ tail, tail = m.drop n := ⟨_, rfl⟩
  have hshort : tail.length < 16 := by rw [htail, List.length_drop]; omega
  have hpadded : (tail ++ Padding.after tail.length).length = 16 := by
    rw [List.length_append, Padding.length_after]
    omega
  obtain ⟨b, hb⟩ : ∃ b, b = Block.ofBytes (tail ++ Padding.after tail.length) := ⟨_, rfl⟩
  have hbytes : b.toBytes = tail ++ Padding.after tail.length := by
    rw [hb, Block.toBytes_ofBytes hpadded]
  have hfeed : s.feed m = (bytesOf (s.chain xs).1, s.behind xs tail) := by
    rw [feed, hready, hxs, htail, hs]
    rfl
  have hdirection : (s.behind xs tail).direction = .encrypt := by rw [hs]; rfl
  have hclose : (s.behind xs tail).close = .ok (bytesOf ((s.behind xs tail).chain [b]).1) :=
    close_of_tail hdirection hshort hbytes
  refine ⟨xs, b, tail, bytesOf ((s.behind xs tail).chain [b]).1, ?_, hbytes, ?_, ?_⟩
  · have hwhole : (m.take n).length = 16 * (m.length / 16) := by rw [List.length_take]; omega
    rw [hxs, bytesOf_ofMessage _ _ hwhole, htail, List.take_append_drop]
  · rw [← hs, hfeed]
    exact hclose
  · have hchain := s.chain_append xs [b] tail
    have hall : s.chain (xs ++ [b]) = chainEncrypt keys iv (xs ++ [b]) := by rw [hs]; rfl
    rw [← hs, hfeed, ← hall, hchain, bytesOf_append]

/-- **The block that is pending when deciphering ends is stripped of its padding.** -/
theorem close_of_block {s : State} {b y : Block} (hd : s.direction = .decrypt)
    (hp : s.pending = y.toBytes) (hc : (s.chain [y]).1 = [b]) :
    s.close =
      match Padding.strip? b.toBytes with
      | none => .error .badPadding
      | some tail => .ok tail := by
  rw [close, hd]
  simp only [CbcEngine.lastDecrypted, hp, ofMessage_toBytes, hc, bytesOf_singleton,
    Block.length_toBytes]
  rw [if_neg (by decide)]
  cases hstrip : Padding.strip? b.toBytes with
  | none => rfl
  | some tail =>
    have hroom : ¬ blockWidth < tail.length := Nat.not_lt.mpr (length_of_strip? hstrip)
    simp only
    rw [if_neg hroom]

/-- **What deciphering a chain comes to**: all it gives but the last block, and that one without its
padding. -/
theorem decrypt_blocks {xs ys : List Block} {b y : Block}
    (hchain : (chainDecrypt keys iv (ys ++ [y])).1 = xs ++ [b]) :
    (feed ⟨.decrypt, keys, iv, []⟩ (bytesOf (ys ++ [y]))).1 = bytesOf xs ∧
      (feed ⟨.decrypt, keys, iv, []⟩ (bytesOf (ys ++ [y]))).2.close =
        match Padding.strip? b.toBytes with
        | none => .error .badPadding
        | some tail => .ok tail := by
  obtain ⟨s, hs⟩ : ∃ s : State, s = ⟨.decrypt, keys, iv, []⟩ := ⟨_, rfl⟩
  have hsplit : bytesOf (ys ++ [y]) = bytesOf ys ++ y.toBytes := by
    rw [bytesOf_append, bytesOf_singleton]
  have hlen : (bytesOf ys).length = 16 * ys.length := length_bytesOf ys
  have hready : ready s.direction (s.pending ++ (bytesOf ys ++ y.toBytes)).length =
      (bytesOf ys).length := by
    rw [hs]
    simp only [ready, blockWidth, List.nil_append, List.length_append, Block.length_toBytes, hlen]
    omega
  have hfeed : s.feed (bytesOf ys ++ y.toBytes) =
      (bytesOf (s.chain ys).1, s.behind ys y.toBytes) := by
    have hpending : s.pending ++ (bytesOf ys ++ y.toBytes) = bytesOf ys ++ y.toBytes := by
      rw [hs]
      rfl
    rw [feed, hready, hpending, List.take_left, List.drop_left, ofMessage_bytesOf]
  -- the chain gives the same number of blocks as it takes, so the last one comes from the last one
  have happend := s.chain_append ys [y] y.toBytes
  have hall : s.chain (ys ++ [y]) = chainDecrypt keys iv (ys ++ [y]) := by rw [hs]; rfl
  have hparts : (s.chain ys).1 ++ ((s.behind ys y.toBytes).chain [y]).1 = xs ++ [b] := by
    rw [← hchain, ← hall, happend]
  obtain ⟨hfront, hback⟩ := List.append_inj' hparts (by rw [length_chain]; rfl)
  have hdirection : (s.behind ys y.toBytes).direction = .decrypt := by rw [hs]; rfl
  rw [hsplit, ← hs, hfeed]
  exact ⟨by rw [hfront], close_of_block hdirection rfl hback⟩

/-- What a whole message comes to. -/
def whole (s : State) (d : Bytes) : Except EngineError Bytes :=
  (s.feed d).2.close.map ((s.feed d).1 ++ ·)

/-- **Deciphering a body undoes enciphering it.** -/
theorem whole_whole {m body : Bytes} (h : whole ⟨.encrypt, keys, iv, []⟩ m = .ok body) :
    whole ⟨.decrypt, keys, iv, []⟩ body = .ok m := by
  obtain ⟨xs, b, tail, out, hm, hb, hclose, hsum⟩ := encrypt_blocks keys iv m
  -- the chain has as many blocks as it was given, so there is a last one
  obtain ⟨ys, y, hys⟩ : ∃ ys y, (chainEncrypt keys iv (xs ++ [b])).1 = ys ++ [y] := by
    rcases List.eq_nil_or_concat' (chainEncrypt keys iv (xs ++ [b])).1 with hnil | hlast
    · have hlen := length_chain ⟨.encrypt, keys, iv, []⟩ (xs ++ [b])
      simp only [chain, hnil, List.length_append] at hlen
      simp at hlen
    · exact hlast
  have hbody : body = bytesOf (ys ++ [y]) := by
    rw [whole, hclose] at h
    rw [← hys, ← hsum]
    exact (Except.ok.inj h).symm
  have hchain := chainDecrypt_chainEncrypt keys iv (xs ++ [b])
  rw [hys] at hchain
  obtain ⟨hfront, hback⟩ := decrypt_blocks hchain
  rw [hb, Padding.strip?_append] at hback
  rw [hbody, whole, hback, hfront, hm]
  rfl

end State

end Cbc

/-! ## 3. Masks -/

/-- The mask of every authenticated cipher is a keystream, as long as it is asked to be. -/
theorem AeadCipher.masks_keyed (cipher : AeadCipher) (key nonce aad : Bytes) :
    (cipher.keyed key nonce aad).Masks := by
  intro n
  cases cipher with
  | aes128Gcm => exact Aes.length_keystream _ _ n
  | aes256Gcm => exact Aes.length_keystream _ _ n
  | chacha20Poly1305 => exact ChaCha20.length_keystream _ _ _ n
  | aes128Ccm => exact Aes.length_keystream _ _ n
  | aes128Eax => exact Aes.length_keystream _ _ n

/-- **Opening what was collected undoes sealing it.** -/
theorem AeadEngine.transform_transform {cipher : AeadCipher} {key nonce aad m body : Bytes}
    (h : Aead.State.transform cipher ⟨.encrypt, key, nonce, aad, m⟩ = .ok body) :
    Aead.State.transform cipher ⟨.decrypt, key, nonce, aad, body⟩ = .ok m := by
  unfold Aead.State.transform at h ⊢
  simp only at h ⊢
  split at h
  · rename_i sealed hseal
    obtain rfl := Except.ok.inj h
    obtain ⟨hlen, hopen⟩ :=
      Aead.Keyed.open?_seal? (cipher.masks_keyed key nonce aad) hseal
    rw [if_neg (by omega), hopen]
  · simp at h

/-! ## 4. Engines -/

namespace Engine

theorem whole_aead (cipher : AeadCipher) (s : Aead.State) (d : Bytes) :
    whole (.aead ⟨cipher, some s⟩) d =
      Aead.State.transform cipher { s with collected := s.collected ++ d } := by
  simp only [whole, feed, close, Option.map_some, Aead.State.feed]
  cases Aead.State.transform cipher { s with collected := s.collected ++ d } <;> rfl

/-- **What was made of a message with one engine is made into the message by another of the same
kind**, keyed the other way with the same key, nonce and header. -/
theorem whole_whole {e e' keyed : Engine} (hkind : e'.spent = e.spent) {key : Key}
    {nonce header m body : Bytes} (hk : keyFor .encrypt key nonce header e = .ok () keyed)
    (hw : keyed.whole m = .ok body) :
    ∃ keyed', keyFor .decrypt key nonce header e' = .ok () keyed' ∧ keyed'.whole body = .ok m := by
  obtain ⟨cipher, state⟩ | ⟨width, state⟩ := e
  · obtain ⟨cipher', state'⟩ | ⟨width', state'⟩ := e'
    · simp only [spent, Engine.aead.injEq, AeadEngine.mk.injEq, and_true] at hkind
      subst hkind
      obtain ⟨hn, hl, rfl⟩ := keyFor_aead.mp hk
      refine ⟨_, keyFor_aead.mpr ⟨hn, hl, rfl⟩, ?_⟩
      rw [whole_aead] at hw ⊢
      exact AeadEngine.transform_transform hw
    · simp [spent] at hkind
  · obtain ⟨cipher', state'⟩ | ⟨width', state'⟩ := e'
    · simp [spent] at hkind
    · simp only [spent, Engine.cbc.injEq, CbcEngine.mk.injEq, and_true] at hkind
      subst hkind
      obtain ⟨hl, hn, rfl⟩ := keyFor_cbc.mp hk
      refine ⟨_, keyFor_cbc.mpr ⟨hl, hn, rfl⟩, ?_⟩
      exact Cbc.State.whole_whole hw

end Engine

end Envelope

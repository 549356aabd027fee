/-
# A body is the body of one message

That deciphering undoes enciphering leaves open whether other bodies decipher to the same message.
They do not: what an engine opens is what the same engine, keyed the other way, makes of the result
(`Engine.whole_back`).  So there is nothing in a body that could be changed without notice.

For the authenticated ciphers the tag says so, and it stands in a fixed place.  For cipher block
chaining, which has no tag, it takes three facts: enciphering undoes deciphering too, block by block
(`chainEncrypt_chainDecrypt`); taking the padding off is strict, so that the last block is the rest
of the message and the padding after it, and nothing else (`Padding.eq_append_of_strip?`); and a
message is cut into whole blocks and a rest in one way only (`eq_of_blocks`).
-/
import Envelope.Proofs.Engine.RoundTrip

namespace Envelope

/-! ## 1. Padding -/

/-- **What ends in padding is a message and the padding after it**, every byte of it.  Of one block
less than a block is left. -/
theorem Padding.eq_append_of_strip? {padded tail : Bytes} (hwidth : padded.length = 16)
    (h : strip? padded = some tail) : padded = tail ++ after tail.length ∧ tail.length < 16 := by
  obtain ⟨r, hr⟩ : ∃ r, r = (padded.getLastD 0).toNat := ⟨_, rfl⟩
  simp only [strip?, ← hr, hwidth] at h
  split at h
  · rename_i hvalid
    obtain ⟨hpos, hle, -, hlast⟩ := hvalid
    obtain rfl := Option.some.inj h
    have hlen : (padded.take (16 - r)).length = 16 - r := by rw [List.length_take]; omega
    have hafter : after (16 - r) = List.replicate r (UInt8.ofNat r) := by
      have hvalue : 16 - (16 - r) % 16 = r := by omega
      rw [after, hvalue]
    refine ⟨?_, by omega⟩
    rw [hlen, hafter, ← hlast, List.take_append_drop]
  · simp at h

namespace Cbc

/-! ## 2. Chains -/

/-- **Enciphering a chain undoes deciphering it.** -/
theorem chainEncrypt_chainDecrypt (keys : Aes.RoundKeys) (previous : Block) (ys : List Block) :
    (chainEncrypt keys previous (chainDecrypt keys previous ys).1).1 = ys := by
  induction ys generalizing previous with
  | nil => rfl
  | cons y ys ih =>
    simp only [chainDecrypt, chainEncrypt, Aes.xor_xor_block, Aes.encipher_decipher, ih]

/-- Blocks are determined by their bytes. -/
theorem bytesOf_inj {xs ys : List Block} (h : bytesOf xs = bytesOf ys) : xs = ys := by
  rw [← ofMessage_bytesOf xs, h, ofMessage_bytesOf]

/-- **A message is cut into whole blocks and a rest in one way.** -/
theorem eq_of_blocks {xs xs' : List Block} {tail tail' : Bytes} (ht : tail.length < 16)
    (ht' : tail'.length < 16) (h : bytesOf xs ++ tail = bytesOf xs' ++ tail') :
    xs = xs' ∧ tail = tail' := by
  have hlen := congrArg List.length h
  rw [List.length_append, List.length_append, length_bytesOf, length_bytesOf] at hlen
  have hblocks : (bytesOf xs).length = (bytesOf xs').length := by
    rw [length_bytesOf, length_bytesOf]
    omega
  obtain ⟨hfront, hback⟩ := List.append_inj h hblocks
  exact ⟨bytesOf_inj hfront, hback⟩

namespace State

variable {keys : Aes.RoundKeys} {iv : Block}

/-- **What a last block that can be closed is like**: it deciphers to the rest of the message and
the padding after it. -/
theorem close_eq_ok {s : State} {tail : Bytes} (hd : s.direction = .decrypt)
    (h : s.close = .ok tail) :
    ∃ y b, s.pending = y.toBytes ∧ (s.chain [y]).1 = [b] ∧
      b.toBytes = tail ++ Padding.after tail.length ∧ tail.length < 16 := by
  rw [close, hd] at h
  simp only [CbcEngine.lastDecrypted] at h
  split at h
  · simp at h
  rename_i hpending
  have hwidth : s.pending.length = 16 := not_not.mp hpending
  obtain ⟨y, hy⟩ : ∃ y, y = Block.ofBytes s.pending := ⟨_, rfl⟩
  have hbytes : s.pending = y.toBytes := by rw [hy, Block.toBytes_ofBytes hwidth]
  obtain ⟨b, hb⟩ : ∃ b, (s.chain [y]).1 = [b] :=
    List.length_eq_one_iff.mp (s.length_chain [y])
  rw [hbytes, ofMessage_toBytes, hb, bytesOf_singleton] at h
  split at h
  · simp at h
  rename_i plain hstrip
  split at h
  · simp at h
  obtain rfl := Except.ok.inj h
  obtain ⟨hpadded, hshort⟩ := Padding.eq_append_of_strip? b.length_toBytes hstrip
  exact ⟨y, b, hbytes, hb, hpadded, hshort⟩

/-- **What a body that can be deciphered is like**: whole blocks, which decipher to the whole blocks
of the message and to one more with the rest of it and the padding. -/
theorem decrypt_eq_ok {body m : Bytes} (h : whole ⟨.decrypt, keys, iv, []⟩ body = .ok m) :
    ∃ ys xs b tail, body = bytesOf ys ∧ (chainDecrypt keys iv ys).1 = xs ++ [b] ∧
      b.toBytes = tail ++ Padding.after tail.length ∧ tail.length < 16 ∧
      m = bytesOf xs ++ tail := by
  obtain ⟨s, hs⟩ : ∃ s : State, s = ⟨.decrypt, keys, iv, []⟩ := ⟨_, rfl⟩
  obtain ⟨n, hn⟩ : ∃ n, n = (body.length - 1) / 16 * 16 := ⟨_, rfl⟩
  obtain ⟨ys, hys⟩ : ∃ ys, ys = Block.ofMessage (body.take n) := ⟨_, rfl⟩
  have hready : ready s.direction (s.pending ++ body).length = n := by rw [hs, hn]; rfl
  have hfeed : s.feed body = (bytesOf (s.chain ys).1, s.behind ys (body.drop n)) := by
    rw [feed, hready, hys, hs]
    rfl
  rw [whole, ← hs, hfeed] at h
  cases hclose : (s.behind ys (body.drop n)).close with
  | error err => rw [hclose] at h; simp [Except.map] at h
  | ok tail =>
    rw [hclose] at h
    obtain rfl := Except.ok.inj h
    have hdirection : (s.behind ys (body.drop n)).direction = .decrypt := by rw [hs]; rfl
    obtain ⟨y, b, hpending, hb, hpadded, hshort⟩ := close_eq_ok hdirection hclose
    have hfront : bytesOf ys = body.take n := by
      have hlen : (body.take n).length = 16 * ((body.length - 1) / 16) := by
        rw [List.length_take]
        omega
      rw [hys, bytesOf_ofMessage _ _ hlen]
    have hback : body.drop n = y.toBytes := hpending
    refine ⟨ys ++ [y], (s.chain ys).1, b, tail, ?_, ?_, hpadded, hshort, rfl⟩
    · rw [bytesOf_append, bytesOf_singleton, hfront, ← hback, List.take_append_drop]
    · have hall : s.chain (ys ++ [y]) = chainDecrypt keys iv (ys ++ [y]) := by rw [hs]; rfl
      rw [← hall, s.chain_append ys [y] (body.drop n), hb]

/-- **Enciphering a message undoes deciphering its body.** -/
theorem whole_back {m body : Bytes} (h : whole ⟨.decrypt, keys, iv, []⟩ body = .ok m) :
    whole ⟨.encrypt, keys, iv, []⟩ m = .ok body := by
  obtain ⟨ys, xs, b, tail, rfl, hchain, hb, hshort, hm⟩ := decrypt_eq_ok h
  obtain ⟨xs', b', tail', out, hm', hb', hclose, hsum⟩ := encrypt_blocks keys iv m
  have hshort' : tail'.length < 16 := by
    have hwidth := b'.length_toBytes
    rw [hb', List.length_append, Padding.length_after] at hwidth
    omega
  -- enciphering cuts the message where deciphering has put it together
  obtain ⟨rfl, rfl⟩ := eq_of_blocks hshort hshort' (hm.symm.trans hm')
  have hlast : [b] = [b'] := bytesOf_inj (by rw [bytesOf_singleton, bytesOf_singleton, hb, hb'])
  rw [whole, hclose]
  show Except.ok (_ ++ out) = _
  rw [hsum, ← hlast, ← hchain, chainEncrypt_chainDecrypt]

end State

end Cbc

/-! ## 3. Masks and tags -/

/-- **Sealing undoes opening**: the tag is in its place, and is the tag of the message. -/
theorem Aead.Keyed.seal?_open? {k : Keyed} (hmasks : k.Masks) {sealed plain : Bytes}
    (h : k.open? sealed = some plain) : k.seal? plain = some sealed := by
  obtain ⟨cipher, hcipher⟩ : ∃ cipher, cipher = sealed.take (sealed.length - 16) := ⟨_, rfl⟩
  simp only [open?, ← hcipher] at h
  split at h
  · rename_i hadmits
    split at h
    · rename_i htag
      obtain rfl := Option.some.inj h
      have hlen : (k.combine cipher).length = cipher.length := length_combine hmasks cipher
      rw [seal?, if_pos (by rw [hlen]; exact hadmits)]
      simp only [combine_combine hmasks, ← htag]
      rw [hcipher, List.take_append_drop]
    · simp at h
  · simp at h

/-- Sealing what was opened gives the body that was collected. -/
theorem AeadEngine.transform_back {cipher : AeadCipher} {key nonce aad m body : Bytes}
    (h : Aead.State.transform cipher ⟨.decrypt, key, nonce, aad, body⟩ = .ok m) :
    Aead.State.transform cipher ⟨.encrypt, key, nonce, aad, m⟩ = .ok body := by
  obtain ⟨-, hopen⟩ := transform_decrypt_eq_ok.mp h
  have hseal := Aead.Keyed.seal?_open? (cipher.masks_keyed key nonce aad) hopen
  unfold Aead.State.transform
  simp only [hseal]

/-! ## 4. Engines -/

/-- **What was opened with an engine is sealed to the same body** by the engine keyed the other way,
with the same key, nonce and header. -/
theorem Engine.whole_back {e keyed : Engine} {key : Key} {nonce header m body : Bytes}
    (hk : keyFor .decrypt key nonce header e = .ok () keyed) (hw : keyed.whole body = .ok m) :
    ∃ keyed', keyFor .encrypt key nonce header e = .ok () keyed' ∧ keyed'.whole m = .ok body := by
  obtain ⟨cipher, state⟩ | ⟨width, state⟩ := e
  · obtain ⟨hn, hl, rfl⟩ := keyFor_aead.mp hk
    refine ⟨_, keyFor_aead.mpr ⟨hn, hl, rfl⟩, ?_⟩
    rw [whole_aead] at hw ⊢
    exact AeadEngine.transform_back hw
  · obtain ⟨hl, hn, rfl⟩ := keyFor_cbc.mp hk
    refine ⟨_, keyFor_cbc.mpr ⟨hl, hn, rfl⟩, ?_⟩
    exact Cbc.State.whole_back hw

end Envelope

/-
# Opening undoes sealing

Sealing and opening are written once for all authenticated ciphers, and so is the reason why one
undoes the other: a mask that is as long as the message comes off again, and the tag is recomputed
from the same message and the same ciphertext (`open?_seal?`).  Nothing is needed of the tag but
that it is a function.  What each cipher contributes is that its mask is long enough (`Masks`).

The lengths do not need even that, since combining byte by byte never makes a message longer.
-/
import Envelope.Proofs.Aes
import Envelope.Aead.Keyed
import Envelope.ChaCha20
import Envelope.Limits

namespace Envelope

namespace Aead.Keyed

variable {k : Keyed}

/-! ## 1. Lengths -/

/-- The mask does not make a message longer. -/
theorem length_combine_le (message : Bytes) : (k.combine message).length ≤ message.length := by
  rw [combine, Bytes.xor, List.length_zipWith]
  exact Nat.min_le_left _ _

theorem length_seal?_le {plain sealed : Bytes} (h : k.seal? plain = some sealed) :
    sealed.length ≤ plain.length + bodyTagWidth := by
  unfold seal? at h
  split at h
  · obtain rfl := Option.some.inj h
    have hle := length_combine_le (k := k) plain
    rw [List.length_append, Block.length_toBytes, bodyTagWidth]
    omega
  · simp at h

theorem length_open?_le {sealed plain : Bytes} (h : k.open? sealed = some plain) :
    plain.length ≤ sealed.length - bodyTagWidth := by
  simp only [open?] at h
  split at h
  · split at h
    · obtain rfl := Option.some.inj h
      have hle := length_combine_le (k := k) (sealed.take (sealed.length - 16))
      rw [List.length_take] at hle
      rw [bodyTagWidth]
      omega
    · simp at h
  · simp at h

/-! ## 2. There and back -/

/-- **The mask is as long as the message.** -/
def Masks (k : Keyed) : Prop := ∀ n, (k.mask n).length = n

theorem length_combine (h : k.Masks) (message : Bytes) :
    (k.combine message).length = message.length :=
  Bytes.length_xor (Nat.le_of_eq (h message.length).symm)

theorem combine_combine (h : k.Masks) (message : Bytes) :
    k.combine (k.combine message) = message := by
  have hlen := length_combine h message
  rw [combine, hlen, combine, Bytes.xor_xor (Nat.le_of_eq (h message.length).symm)]

/-- **Opening undoes sealing**, and sealing adds exactly the tag. -/
theorem open?_seal? (h : k.Masks) {plain sealed : Bytes} (hs : k.seal? plain = some sealed) :
    sealed.length = plain.length + bodyTagWidth ∧ k.open? sealed = some plain := by
  unfold seal? at hs
  split at hs
  · rename_i hadmits
    obtain rfl := Option.some.inj hs
    obtain ⟨cipher, hcipher⟩ : ∃ cipher, cipher = k.combine plain := ⟨_, rfl⟩
    obtain ⟨tag, htag⟩ : ∃ tag, tag = (k.tag plain cipher).toBytes := ⟨_, rfl⟩
    have hlen : cipher.length = plain.length := by rw [hcipher, length_combine h]
    have hwidth : tag.length = 16 := by rw [htag]; exact Block.length_toBytes _
    have hback : k.combine cipher = plain := by rw [hcipher, combine_combine h]
    simp only [← hcipher, ← htag]
    have hsum : (cipher ++ tag).length = cipher.length + 16 := by rw [List.length_append, hwidth]
    refine ⟨by rw [hsum, hlen, bodyTagWidth], ?_⟩
    unfold open?
    rw [hsum, Nat.add_sub_cancel, List.take_left, List.drop_left]
    simp only [hback, hlen]
    rw [if_pos hadmits, if_pos htag]
  · simp at hs

end Aead.Keyed

/-! ## 3. A keystream for a mask -/

namespace ChaCha20

theorem length_block (key nonce : Bytes) (counter : Nat) :
    (block key nonce counter).length = 64 := by
  rw [block, Bytes.length_flatMap fun w => Bytes.length_ofNatLE 4 _, Vector.length_toList]

/-- As many bytes come out as were asked for. -/
theorem length_keystream (key nonce : Bytes) (first n : Nat) :
    (keystream key nonce first n).length = n := by
  rw [keystream, List.length_take, Bytes.length_flatMap fun i => length_block key nonce _,
    List.length_range]
  omega

end ChaCha20

end Envelope

/-
# Authenticated engines collect

An authenticated engine gives nothing out before the end, so that pieces make no difference is plain
here: what is collected of two pieces is what is collected of the whole.  What has to be shown is
that the room it publishes is enough: sealing adds sixteen bytes and opening takes sixteen off.
-/
import Envelope.Proofs.Aead
import Envelope.Engine.Aead

namespace Envelope

namespace Aead

/-! ## 1. Collecting -/

/-- **What an update does**: it collects. -/
def State.feed (s : State) (input : Bytes) : State :=
  { s with collected := s.collected ++ input }

theorem State.feed_append (s : State) (a b : Bytes) : s.feed (a ++ b) = (s.feed a).feed b := by
  simp only [feed, List.append_assoc]

@[simp] theorem State.feed_nil (s : State) : s.feed [] = s := by
  rw [feed, List.append_nil]

end Aead

/-! ## 2. The engine's calls -/

namespace AeadEngine

variable {cipher : AeadCipher} {s : Aead.State}

theorem update_eq_feed (input : Bytes) :
    update input ⟨cipher, some s⟩ = .ok [] ⟨cipher, some (s.feed input)⟩ := rfl

/-- **The body is genuine, and its message is `plain`**: it is long enough to have a tag, and under
the key, the nonce and the associated data the tag is right. -/
structure Opens (cipher : AeadCipher) (key nonce aad body plain : Bytes) : Prop where
  long : bodyTagWidth ≤ body.length
  opened : (cipher.keyed key nonce aad).open? body = some plain

/-- **A collected body is opened as a whole or not at all.** -/
theorem transform_decrypt_eq_ok {key nonce aad body plain : Bytes} :
    Aead.State.transform cipher ⟨.decrypt, key, nonce, aad, body⟩ = .ok plain ↔
      Opens cipher key nonce aad body plain := by
  unfold Aead.State.transform
  simp only
  constructor
  · intro h
    split at h
    · simp at h
    · rename_i hlong
      cases ho : (cipher.keyed key nonce aad).open? body with
      | none => rw [ho] at h; simp at h
      | some out =>
        rw [ho] at h
        obtain rfl := Except.ok.inj h
        exact ⟨Nat.not_lt.mp hlong, ho⟩
  · rintro ⟨hlong, ho⟩
    rw [if_neg (Nat.not_lt.mpr hlong), ho]

/-- What comes out at the end is as long as announced, or shorter. -/
theorem length_transform_le {out : Bytes} (h : Aead.State.transform cipher s = .ok out) :
    out.length ≤ maxOutput ⟨cipher, some s⟩ 0 := by
  obtain ⟨direction, key, nonce, aad, collected⟩ := s
  simp only [maxOutput, AeadEngine.collected, decrypts, Option.map_some, Option.getD_some,
    Option.any_some, Nat.add_zero]
  unfold Aead.State.transform at h
  cases direction with
  | encrypt =>
    simp only at h
    split at h
    · rename_i body hseal
      obtain rfl := Except.ok.inj h
      exact Aead.Keyed.length_seal?_le hseal
    · simp at h
  | decrypt =>
    simp only at h
    split at h
    · simp at h
    · split at h
      · rename_i plain hopen
        obtain rfl := Except.ok.inj h
        exact Aead.Keyed.length_open?_le hopen
      · simp at h

/-- **A finish with room enough is the transformation of what was collected.** -/
theorem finish_eq_transform {room : Nat} (h : maxOutput ⟨cipher, some s⟩ 0 ≤ room) :
    finish room ⟨cipher, some s⟩ =
      match Aead.State.transform cipher s with
      | .ok out => .ok out ⟨cipher, none⟩
      | .error err => .error err ⟨cipher, none⟩ := by
  unfold finish
  simp only
  cases ht : Aead.State.transform cipher s with
  | error err => rfl
  | ok out =>
    have hlen := length_transform_le ht
    simp only
    rw [if_neg (by omega)]

/-- The room for a whole message is the room for a finish after it. -/
theorem room_whole (input : Bytes) :
    maxOutput ⟨cipher, some (s.feed input)⟩ 0 = maxOutput ⟨cipher, some s⟩ input.length := by
  simp only [maxOutput, collected, decrypts, Option.map_some, Option.getD_some, Option.any_some,
    Aead.State.feed, List.length_append, Nat.add_zero]
  rfl

end AeadEngine

end Envelope

/-
# Streams and whole messages come to the same

This is the contract between the two ways to seal and to open: a caller may stream a message or hand
it over whole, and cannot tell the difference from what comes out or from how it fails.  It holds
for every input, genuine or not, for every way the transports cut it into pieces, and for every
suite that can be streamed at all; that is, for all but the one whose first block holds the length
of the message.

The two theorems put together what was shown for a sealer, which finds its keys by name, and for a
caller with a key in hand, whose engine may be in any state.
-/
import Envelope.Proofs.RoundTrip
import Envelope.Proofs.Sealer
import Envelope.Proofs.WithKey

namespace Envelope

/-! ## 1. Opening -/

/-- **Opening a stream comes to what opening the whole message comes to.**  For every byte string
`c`, every reader that delivers it and every writer that accepts everything: if `c` can be opened,
so can the stream, and the writer receives the message; if not, the stream fails with the same
failure.  The first part is about a sealer of any configuration whose chunks are not empty and any
resolver that is a function of the name, the second about a key in hand and any chunk size. -/
theorem decryptStream_agrees {engine : Engine} (hsuite : engine.suite ≠ .aes128Ccm) {c : Bytes}
    {reader : Reader} (hr : reader.Delivers c none) {writer : Writer} (hw : writer.Accepting) :
    (∀ (f : String → Option Key) (config : Config) (nonceLength : Nat) (session : Session),
      0 < config.chunkSize →
        Alike (StreamSession.Received writer.received) StreamSession.FailedSame
          (Sealer.decrypt ⟨config, .ofFunction f, engine, nonceLength⟩ c session)
          (Sealer.decryptStream ⟨config, .ofFunction f, engine, nonceLength⟩
            { session with source := .ofReader reader, writer })) ∧
    ∀ (key : Key) (nonces : NonceSource) (chunkSize : Nat),
      Alike (WithKey.StreamDesk.Received writer.received) WithKey.StreamDesk.FailedSame
        (WithKey.decrypt key c { engine, nonces })
        (WithKey.decryptStream key chunkSize
          { engine, nonces, source := .ofReader reader, writer }) := by
  have hstreams := Engine.streams_eq_true.mpr hsuite
  constructor
  · intro f config nonceLength session hchunk
    exact Sealer.alike_decrypt (s := ⟨config, .ofFunction f, engine, nonceLength⟩)
      (t := { session with source := .ofReader reader, writer }) rfl hstreams hchunk hr rfl hw
  · intro key nonces chunkSize
    exact WithKey.alike_decrypt (t := { engine, nonces, source := .ofReader reader, writer }) key
      chunkSize hstreams hr rfl hw

/-- Five bytes sealed whole.  Their ciphertext is delivered three bytes at a time and interrupted
once; it is opened in chunks of two bytes, and the writer, which is interrupted as well and takes
one byte at a time, receives the message. -/
theorem decryptStream_agrees_five_bytes :
    ∃ (s : Sealer) (c : Bytes) (after : Session) (sum : Summary) (t : StreamSession),
      s.encrypt [1, 2, 3, 4, 5] { nonces := .random 16 [], asked := [] } = .ok c after ∧
      s.decryptStream
        { nonces := .random 16 [], asked := []
          source := .ofReader (.paced c { sizes := [3] } [1])
          writer := { Writer.paced { sizes := [1] } none with interrupts := [0, 2] } } = .ok sum t ∧
      t.writer.received = [1, 2, 3, 4, 5] := by
  obtain ⟨s, hs⟩ : ∃ s : Sealer, s =
      ⟨{ keyAlias := "k", chunkSize := 2 }, .ofFunction fun _ => some ⟨Bytes.zeros 16⟩,
        Suite.engine .aes128CbcPkcs7, 16⟩ := ⟨_, rfl⟩
  obtain ⟨c, after, he⟩ : ∃ c after,
      s.encrypt [1, 2, 3, 4, 5] { nonces := .random 16 [], asked := [] } = .ok c after := by
    rw [hs]
    exact ⟨_, _, rfl⟩
  have hresolver : s.resolver = .ofFunction fun _ => some ⟨Bytes.zeros 16⟩ := by rw [hs]
  have hname : s.config.keyAlias ≠ "" := by rw [hs]; decide
  obtain ⟨_, hwhole⟩ := Sealer.decrypt_of_encrypt hresolver hresolver rfl hname rfl he
    { nonces := .random 16 [], asked := [] }
  have hsuite : (Suite.engine .aes128CbcPkcs7).suite ≠ .aes128Ccm := by decide
  have hr := Reader.delivers_paced c [1] (by decide : ∀ n ∈ [3], 0 < n)
  have hw : Writer.Accepting { Writer.paced { sizes := [1] } none with interrupts := [0, 2] } :=
    (Writer.accepting_paced (by decide : ∀ n ∈ [1], 0 < n)).of_rule rfl rfl
  have h := (decryptStream_agrees hsuite hr hw).1 (fun _ => some ⟨Bytes.zeros 16⟩)
    { keyAlias := "k", chunkSize := 2 } 16 { nonces := .random 16 [], asked := [] } (by decide)
  rw [← hs, hwhole] at h
  obtain ⟨sum, t, ht, hreceived, -⟩ := h.of_ok
  exact ⟨s, c, after, sum, t, he, ht, hreceived⟩

/-! ## 2. Sealing -/

/-- **Sealing a stream comes to what sealing the whole message comes to**, with the same nonce: the
same ciphertext, or the same failure.  The first part is about a sealer, the second about a key in
hand. -/
theorem encryptStream_agrees {engine : Engine} (hsuite : engine.suite ≠ .aes128Ccm) {m : Bytes}
    {reader : Reader} (hr : reader.Delivers m none) {writer : Writer} (hw : writer.Accepting) :
    (∀ (resolver : Resolver) (config : Config) (nonceLength : Nat) (session : Session),
      0 < config.chunkSize →
        Alike (StreamSession.Received writer.received) StreamSession.FailedSame
          (Sealer.encrypt ⟨config, resolver, engine, nonceLength⟩ m session)
          (Sealer.encryptStream ⟨config, resolver, engine, nonceLength⟩
            { session with source := .ofReader reader, writer })) ∧
    ∀ (key : Key) (nonces : NonceSource) (chunkSize : Nat),
      Alike (WithKey.StreamDesk.Received writer.received) WithKey.StreamDesk.FailedSame
        (WithKey.encrypt key m { engine, nonces })
        (WithKey.encryptStream key chunkSize
          { engine, nonces, source := .ofReader reader, writer }) := by
  have hstreams := Engine.streams_eq_true.mpr hsuite
  constructor
  · intro resolver config nonceLength session hchunk
    exact Sealer.alike_encrypt (s := ⟨config, resolver, engine, nonceLength⟩)
      (t := { session with source := .ofReader reader, writer }) hstreams hchunk hr rfl hw
  · intro key nonces chunkSize
    exact WithKey.alike_encrypt (t := { engine, nonces, source := .ofReader reader, writer }) key
      chunkSize hstreams hr rfl hw

/-- Three bytes sealed with a key in hand, delivered one at a time and written in portions of two:
the writer holds the ciphertext of the whole. -/
theorem encryptStream_agrees_three_bytes :
    ∃ c d sum t, WithKey.encrypt ⟨Bytes.zeros 16⟩ [1, 2, 3]
        ⟨Suite.engine .aes128CbcPkcs7, .random 16 []⟩ = .ok c d ∧
      WithKey.encryptStream ⟨Bytes.zeros 16⟩ 0
        { engine := Suite.engine .aes128CbcPkcs7, nonces := .random 16 []
          source := .ofReader (.paced [1, 2, 3] { sizes := [1] } [])
          writer := .paced { sizes := [2] } none } =
        .ok sum t ∧ t.writer.received = c := by
  have hsuite : (Suite.engine .aes128CbcPkcs7).suite ≠ .aes128Ccm := by decide
  have hr : (Reader.paced [1, 2, 3] { sizes := [1] } []).Delivers [1, 2, 3] none :=
    Reader.delivers_paced _ _ (by decide)
  have hw : (Writer.paced { sizes := [2] } none).Accepting := Writer.accepting_paced (by decide)
  have h := (encryptStream_agrees hsuite hr hw).2 ⟨Bytes.zeros 16⟩ (.random 16 []) 0
  obtain ⟨c, d, hwhole⟩ : ∃ c d, WithKey.encrypt ⟨Bytes.zeros 16⟩ [1, 2, 3]
      ⟨Suite.engine .aes128CbcPkcs7, .random 16 []⟩ = .ok c d := ⟨_, _, rfl⟩
  rw [hwhole] at h
  obtain ⟨sum, t, ht, hreceived, -⟩ := h.of_ok
  exact ⟨c, d, sum, t, hwhole, ht, hreceived⟩

end Envelope

/-
# Opening a stream is fail-closed

A stream is opened before its end has been seen, by a caller whose reader may break at any byte and
whose writer may do so as well.  What is promised for an authenticated suite is that no unverified
byte gets out (`decryptStream_failClosed`): as long as the writer holds anything, the reader has
delivered everything, the tag of the whole body was right under the key that was found, and what the
writer holds is a front of the message that opening the whole would have given.  And a call that
fails has not called the writer, unless the writer's own failure is the reason.

Everything in front of the body leaves the writer alone, so what remains is the body, and that is
the result about transfers (`failClosed_body`).  What has to be shown here is that the body is the
right one: the bytes behind the header, under the key for it, with the header as associated data.
-/
import Envelope.Proofs.Engine.RoundTrip
import Envelope.Proofs.Header.Stream
import Envelope.Proofs.Sealer
import Envelope.Proofs.Transfer.FailClosed
import Envelope.Proofs.WithKey
import Envelope.Suite

namespace Envelope

variable {cipher : AeadCipher} {state : Option Aead.State} {c : Bytes}
  {failure : Option TransportError} {reader : Reader}

/-- What an engine that was keyed for opening makes of a body is what the body opens to. -/
theorem Engine.opens_of_whole {key : Key} {nonce aad body plain : Bytes} {keyed : Engine}
    (hk : keyFor .decrypt key nonce aad (.aead ⟨cipher, state⟩) = .ok () keyed)
    (hw : keyed.whole body = .ok plain) :
    AeadEngine.Opens cipher key.bytes nonce aad body plain := by
  obtain ⟨-, -, rfl⟩ := keyFor_aead.mp hk
  rw [whole_aead] at hw
  exact AeadEngine.transform_decrypt_eq_ok.mp hw

/-- **Behind a header, a body is released as a whole or not at all.** -/
theorem Transfer.failClosed_inward {t : Transfer} {size : Nat} (hsize : 0 < size) {d : Bytes}
    (hd : t.source.Delivers d failure) {key : Key} {nonce aad : Bytes}
    (hk : Engine.keyFor .decrypt key nonce aad (.aead ⟨cipher, state⟩) = .ok () t.engine)
    (header : Bytes) :
    FailClosed ends t.writer (fun plain => failure = none ∧ t.engine.whole d = .ok plain)
      (inward header size t) := by
  obtain ⟨-, -, he⟩ := Engine.keyFor_aead.mp hk
  exact failClosed_body (t := { t with counts := t.counts.addHeader header.length }) hsize hd he

/-! ## 1. A sealer -/

namespace StreamSession

/-- The ends of a stream session. -/
def ends (t : StreamSession) : StreamSource × Writer := (t.source, t.writer)

variable {α β : Type} {t : StreamSession} {Genuine : Bytes → Prop}

/-- **A step within the session may come first.** -/
theorem failClosed_inSession {call : InSession α} {next : α → InStream β}
    (h : ∀ a session, call t.toSession = .ok a session →
      FailClosed ends t.writer Genuine (next a { t with toSession := session })) :
    FailClosed ends t.writer Genuine ((inSession call >>= next) t) := by
  refine FailClosed.bind ?_ ?_
  · intro e t' hstep
    obtain ⟨_, rfl⟩ := inSession_eq_error hstep
    rfl
  · intro a t' hstep
    obtain ⟨session, hcall, rfl⟩ := inSession_eq_ok hstep
    exact h a session hcall

/-- **The header may be read first.**  It is the header of the bytes that are delivered, and the
bytes behind it are still to come. -/
theorem failClosed_scanning {r : Resolver} {next : Header → InStream β}
    (hr : reader.Delivers c failure) (ht : t.source = .ofReader reader)
    (h : ∀ header n asked source, Header.ofBytes r c t.asked = .ok (header, n) asked →
      source.Delivers (c.drop n) failure →
        FailClosed ends t.writer Genuine (next header { t with source, asked })) :
    FailClosed ends t.writer Genuine ((scanning (Header.decode r) >>= next) t) := by
  refine FailClosed.bind ?_ ?_
  · intro e t' hstep
    obtain ⟨_, -, rfl⟩ := scanning_eq_error hstep
    rfl
  · intro header t' hstep
    obtain ⟨scan, hd, rfl⟩ := scanning_eq_ok hstep
    rw [ht] at hd
    obtain ⟨n, hread, hleft⟩ := Header.ofBytes_of_decode hr hd
    exact h header n scan.asked scan.source hread hleft

/-- What a transfer keeps, its session keeps. -/
theorem failClosed_transferring {engine : Engine} {stages : StageTimes}
    {call : EStateM Failure Transfer Unit}
    (h : FailClosed Transfer.ends t.writer Genuine
      (call { engine, source := t.source, writer := t.writer, stages })) :
    FailClosed ends t.writer Genuine (transferring engine stages call t) := by
  unfold transferring
  cases hc : call { engine, source := t.source, writer := t.writer, stages } with
  | ok _ t' =>
    rw [hc] at h
    exact h.of_ends rfl (by simp)
  | error e t' =>
    rw [hc] at h
    exact h.of_ends rfl (by simp)

end StreamSession

/-- **Opening a stream is fail-closed** for a sealer. -/
theorem Sealer.failClosed_decryptStream {s : Sealer} (he : s.engine = .aead ⟨cipher, state⟩)
    {f : String → Option Key} (hf : s.resolver = .ofFunction f) (hchunk : 0 < s.config.chunkSize)
    (hr : reader.Delivers c failure) {t : StreamSession} (ht : t.source = .ofReader reader) :
    FailClosed StreamSession.ends t.writer
      (fun plain => failure = none ∧
        (∃ h n asked name key, Header.ofBytes s.resolver c t.asked = .ok (h, n) asked ∧
          h.keyName = some name ∧ name ≠ "" ∧ f name = some key ∧
          AeadEngine.Opens cipher key.bytes h.nonce (c.take n) (c.drop n) plain) ∧
        ∃ done, s.decrypt c t.toSession = .ok plain done)
      (s.decryptStream t) := by
  unfold decryptStream
  refine StreamSession.failClosed_inSession ?_
  intro _ session hcheck
  obtain ⟨-, rfl⟩ := Session.result_eq_ok hcheck
  refine StreamSession.failClosed_scanning hr ht ?_
  intro h n asked source hread hleft
  refine StreamSession.failClosed_inSession (t := { t with source, asked }) ?_
  intro key session₁ hasking
  obtain ⟨asked', hkey, rfl⟩ := Session.asking_eq_ok hasking
  have hform : h.encodeWith key = c.take n := encodeWith_of_keyFor hf hread hkey
  simp only [hform]
  refine StreamSession.failClosed_inSession (t := { t with source, asked := asked' }) ?_
  intro engine session₂ hresult
  obtain ⟨hengine, rfl⟩ := Session.result_eq_ok hresult
  have hkeyed := keyedEngine_eq_ok hengine
  have haead := hkeyed
  rw [he] at haead
  have hbody := Transfer.failClosed_inward
    (t := { engine, source, writer := t.writer, stages := stagesBefore }) hchunk hleft haead
    (c.take n)
  refine FailClosed.map (FailClosed.mono (StreamSession.failClosed_transferring
    (t := { t with source, asked := asked' }) hbody) ?_)
  rintro plain ⟨hnone, hwhole⟩
  obtain ⟨name, hname, hne, hanswer⟩ := keyFor_eq_ok hkey
  have hfound : f name = some key := by rw [hf] at hanswer; exact hanswer
  have hopens := Engine.opens_of_whole haead hwhole
  exact ⟨hnone, ⟨h, n, asked, name, key, hread, hname, hne, hfound, hopens⟩, _,
    decrypt_eq_ok.mpr ⟨h, n, key, engine, asked, asked', hread, hkey, hkeyed, hwhole, rfl⟩⟩

/-! ## 2. A key in hand -/

namespace WithKey

/-- The ends of a desk with a stream. -/
def StreamDesk.ends (t : StreamDesk) : StreamSource × Writer := (t.source, t.writer)

variable {α β : Type} {key : Key} {t : StreamDesk} {Genuine : Bytes → Prop}

/-- **A step that does not touch the stream may come first.** -/
theorem failClosed_atDesk {call : AtDesk α} {next : α → AtStream β}
    (h : ∀ a desk, call t.toDesk = .ok a desk →
      FailClosed StreamDesk.ends t.writer Genuine (next a { t with toDesk := desk })) :
    FailClosed StreamDesk.ends t.writer Genuine ((atDesk call >>= next) t) := by
  refine FailClosed.bind ?_ ?_
  · intro e t' hstep
    obtain ⟨_, rfl⟩ := atDesk_eq_error hstep
    rfl
  · intro a t' hstep
    obtain ⟨desk, hcall, rfl⟩ := atDesk_eq_ok hstep
    exact h a desk hcall

/-- **The header may be read first.** -/
theorem failClosed_readHeader {next : Header → AtStream β} (hr : reader.Delivers c failure)
    (ht : t.source = .ofReader reader)
    (h : ∀ header n asked source, Header.ofBytes (.fixed key) c [] = .ok (header, n) asked →
      source.Delivers (c.drop n) failure →
        FailClosed StreamDesk.ends t.writer Genuine (next header { t with source })) :
    FailClosed StreamDesk.ends t.writer Genuine ((readHeader key >>= next) t) := by
  refine FailClosed.bind ?_ ?_
  · intro e t' hstep
    obtain ⟨_, -, rfl⟩ := readHeader_eq_error hstep
    rfl
  · intro header t' hstep
    obtain ⟨scan, hd, rfl⟩ := readHeader_eq_ok hstep
    rw [ht] at hd
    obtain ⟨n, hread, hleft⟩ := Header.ofBytes_of_decode hr hd
    exact h header n scan.asked scan.source hread hleft

/-- A stream that was not refused is as it was. -/
theorem eq_of_checkStreams {d d' : Desk} (h : checkStreams d = .ok () d') : d' = d := by
  unfold checkStreams at h
  split at h
  · exact (EStateM.Result.ok.inj h).2.symm
  · simp at h

/-- What a transfer keeps, its desk keeps. -/
theorem failClosed_transferring {call : EStateM Failure Transfer Unit}
    (h : FailClosed Transfer.ends t.writer Genuine (call (begun t))) :
    FailClosed StreamDesk.ends t.writer Genuine (transferring call t) := by
  rw [transferring_eq]
  cases hc : call (begun t) with
  | ok _ t' =>
    rw [hc] at h
    exact h.of_ends rfl (by simp)
  | error e t' =>
    rw [hc] at h
    exact h.of_ends rfl (by simp)

/-- **Opening a stream is fail-closed** with a key in hand. -/
theorem failClosed_decryptStream (he : t.engine = .aead ⟨cipher, state⟩) (chunkSize : Nat)
    (hr : reader.Delivers c failure) (ht : t.source = .ofReader reader) :
    FailClosed StreamDesk.ends t.writer
      (fun plain => failure = none ∧
        (∃ h n asked, Header.ofBytes (.fixed key) c [] = .ok (h, n) asked ∧
          AeadEngine.Opens cipher key.bytes h.nonce (c.take n) (c.drop n) plain) ∧
        ∃ done, decrypt key c t.toDesk = .ok plain done)
      (decryptStream key chunkSize t) := by
  unfold decryptStream
  refine failClosed_atDesk ?_
  intro _ desk hcheck
  obtain rfl := eq_of_checkStreams hcheck
  refine failClosed_readHeader hr ht ?_
  intro h n asked source hread hleft
  have hform : h.encodeWith key = c.take n := Header.encodeWith_of_ofBytes hread fun _ _ => rfl
  simp only [hform]
  refine failClosed_atDesk (t := { t with source }) ?_
  intro _ desk₁ hengine
  have hkeyed : Engine.keyFor .decrypt key h.nonce (c.take n) t.engine = .ok () desk₁.engine :=
    onEngine_eq_ok hengine
  have haead := hkeyed
  rw [he] at haead
  have hbody := Transfer.failClosed_inward (t := begun { desk₁ with source, writer := t.writer })
    (chunk_pos chunkSize) hleft haead (c.take n)
  refine FailClosed.mono (failClosed_transferring
    (t := { desk₁ with source, writer := t.writer }) hbody) ?_
  rintro plain ⟨hnone, hwhole⟩
  exact ⟨hnone, ⟨h, n, asked, hread, Engine.opens_of_whole haead hwhole⟩,
    decrypt_of_whole hread hkeyed hwhole⟩

end WithKey

/-! ## 3. Both -/

/-- **Opening a stream with an authenticated suite is fail-closed**, for every byte string in every
fragmentation, a reader that ends behind it or fails there, and every writer.  What a writer may
have received something of is genuine: the reader has not failed, and the body behind the header
opens to it, under the key that was found, the header's nonce, and the header as associated data;
and it is what opening the whole gives.  The first part is about a sealer, the second about a key in
hand. -/
theorem decryptStream_failClosed (cipher : AeadCipher) (state : Option Aead.State) {c : Bytes}
    {failure : Option TransportError} {reader : Reader} (hr : reader.Delivers c failure)
    (writer : Writer) :
    (∀ (f : String → Option Key) (config : Config) (nonceLength : Nat) (session : Session),
      0 < config.chunkSize →
        FailClosed StreamSession.ends writer
          (fun plain => failure = none ∧
            (∃ h n asked name key,
              Header.ofBytes (.ofFunction f) c session.asked = .ok (h, n) asked ∧
              h.keyName = some name ∧ name ≠ "" ∧ f name = some key ∧
              AeadEngine.Opens cipher key.bytes h.nonce (c.take n) (c.drop n) plain) ∧
            ∃ done, Sealer.decrypt ⟨config, .ofFunction f, .aead ⟨cipher, state⟩, nonceLength⟩ c
              session = .ok plain done)
          (Sealer.decryptStream ⟨config, .ofFunction f, .aead ⟨cipher, state⟩, nonceLength⟩
            { session with source := .ofReader reader, writer })) ∧
    ∀ (key : Key) (nonces : NonceSource) (chunkSize : Nat),
      FailClosed WithKey.StreamDesk.ends writer
        (fun plain => failure = none ∧
          (∃ h n asked, Header.ofBytes (.fixed key) c [] = .ok (h, n) asked ∧
            AeadEngine.Opens cipher key.bytes h.nonce (c.take n) (c.drop n) plain) ∧
          ∃ done, WithKey.decrypt key c { engine := .aead ⟨cipher, state⟩, nonces } =
            .ok plain done)
        (WithKey.decryptStream key chunkSize
          { engine := .aead ⟨cipher, state⟩, nonces, source := .ofReader reader, writer }) := by
  constructor
  · intro f config nonceLength session hchunk
    exact Sealer.failClosed_decryptStream
      (s := ⟨config, .ofFunction f, .aead ⟨cipher, state⟩, nonceLength⟩)
      (t := { session with source := .ofReader reader, writer }) rfl rfl hchunk hr rfl
  · intro key nonces chunkSize
    exact WithKey.failClosed_decryptStream
      (t := { engine := .aead ⟨cipher, state⟩, nonces, source := .ofReader reader, writer }) rfl
      chunkSize hr rfl

/-- A genuine ciphertext, from a reader that hands out three bytes at a time and breaks behind the
last one: nothing was written, although every byte of it was there. -/
theorem decryptStream_failClosed_broken_reader :
    ∃ c after reader,
      Sealer.encrypt ⟨{ keyAlias := "k" }, .ofFunction fun _ => some ⟨Bytes.zeros 16⟩,
        Suite.engine .aes128Gcm, 12⟩ [1, 2, 3] ⟨.random 12 [], []⟩ = .ok c after ∧
      Reader.Delivers reader c (some ⟨.connectionReset, "gone"⟩) ∧
      (leftBy (Sealer.decryptStream
        ⟨{ keyAlias := "k" }, .ofFunction fun _ => some ⟨Bytes.zeros 16⟩,
          Suite.engine .aes128Gcm, 12⟩
        { nonces := .random 12 [], asked := [], writer := .paced { sizes := [1] } none
          source := .ofReader reader })).writer.received = [] := by
  obtain ⟨c, after, he⟩ : ∃ c after,
      Sealer.encrypt ⟨{ keyAlias := "k" }, .ofFunction fun _ => some ⟨Bytes.zeros 16⟩,
        Suite.engine .aes128Gcm, 12⟩ [1, 2, 3] ⟨.random 12 [], []⟩ = .ok c after := ⟨_, _, rfl⟩
  have hr := Reader.delivers_paced_failing c [] [2] (by decide : ∀ n ∈ [3], 0 < n)
    ⟨.connectionReset, "gone"⟩
  have h := (decryptStream_failClosed .aes128Gcm none hr (.paced { sizes := [1] } none)).1
    (fun _ => some ⟨Bytes.zeros 16⟩) { keyAlias := "k" } 12 { nonces := .random 12 [], asked := [] }
    (by decide)
  refine ⟨c, after, _, he, hr, ?_⟩
  by_contra hreceived
  obtain ⟨-, plain, out, ⟨hnone, -⟩, -⟩ := h.released hreceived
  simp at hnone

end Envelope

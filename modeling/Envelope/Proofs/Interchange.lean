/-
# A key in hand and a key under a name

There are two ways to seal and to open: with a sealer, which finds its keys under names, and with a
key in hand.  They share the format but build their headers apart, and this module says what one
makes of the other's ciphertexts.

* With the key in hand everything can be opened that was sealed with this key, in either way and in
  either layout, whatever the name in the header.  An authenticated header is checked against the
  key at hand.  The engine is the caller's and may have been left in the middle of another message.
* What is sealed with a key in hand names no key, so no sealer opens it.  It says so as soon as the
  header is read: nobody is asked for a key, and nothing is written.
-/
import Envelope.Proofs.RoundTrip
import Envelope.Proofs.Streaming

namespace Envelope

/-- Engines of one suite differ at most in what they are in the middle of. -/
theorem Engine.spent_eq_of_suite {e e' : Engine} (h : e'.suite = e.suite) : e'.spent = e.spent := by
  obtain ⟨cipher, state⟩ | ⟨width, state⟩ := e <;> obtain ⟨cipher', state'⟩ | ⟨width', state'⟩ := e'
  · cases cipher <;> cases cipher' <;> first | rfl | simp [suite] at h
  · cases cipher <;> cases width' <;> simp [suite] at h
  · cases width <;> cases cipher' <;> simp [suite] at h
  · cases width <;> cases width' <;> first | rfl | simp [suite] at h

/-! ## 1. What is sealed with a key in hand -/

namespace WithKey

/-- A new header can be built, and names no key; the engine is not touched. -/
theorem newHeader_eq_ok {d d' : Desk} {h : PlainHeader} (hh : newHeader d = .ok h d') :
    PlainHeader.new h.nonce h.keyName = .ok h ∧ h.keyName = none ∧ d'.engine = d.engine := by
  unfold newHeader at hh
  cases hg : NonceSource.generate d.nonces with
  | error e nonces => simp [hg] at hh
  | ok nonce nonces =>
    simp only [hg] at hh
    cases hn : PlainHeader.new nonce none with
    | error e => simp [hn, result] at hh
    | ok built =>
      rw [hn] at hh
      obtain ⟨rfl, rfl⟩ := EStateM.Result.ok.inj hh
      obtain ⟨rfl, -, -⟩ := PlainHeader.new_eq_ok.mp hn
      exact ⟨hn, rfl, rfl⟩

/-- **A sealing with a key in hand**: a plain header without a name, an engine that is keyed with
both, and what it makes of the message. -/
theorem encrypt_eq_ok {key : Key} {m c : Bytes} {d after : Desk}
    (he : encrypt key m d = .ok c after) :
    ∃ (h : PlainHeader) (keyed : Engine) (body : Bytes),
      PlainHeader.new h.nonce h.keyName = .ok h ∧ h.keyName = none ∧
      Engine.keyFor .encrypt key h.nonce h.encode d.engine = .ok () keyed ∧
      keyed.whole m = .ok body ∧ c = h.encode ++ body := by
  unfold encrypt at he
  rw [bind_eq_ok] at he
  obtain ⟨h, d₁, hh, he⟩ := he
  obtain ⟨hbuilt, hnone, hengine⟩ := newHeader_eq_ok hh
  rw [bind_eq_ok] at he
  obtain ⟨_, d₂, hkey, he⟩ := he
  have hkeyed := onEngine_eq_ok hkey
  rw [hengine] at hkeyed
  rw [bind_eq_ok] at he
  obtain ⟨body, d₃, hbody, he⟩ := he
  obtain ⟨rfl, -⟩ := EStateM.Result.ok.inj he
  have hsettled := Engine.settled_keyFor hkeyed
  have htransform := onEngine_eq_ok hbody
  rw [Engine.transform_eq_whole hsettled] at htransform
  refine ⟨h, d₂.engine, body, hbuilt, hnone, hkeyed, ?_, rfl⟩
  cases hw : d₂.engine.whole m with
  | ok out =>
    rw [hw] at htransform
    rw [(EStateM.Result.ok.inj htransform).1]
  | error err => simp [hw] at htransform

/-! ## 2. Opening with the key in hand -/

/-- **What was put together can be opened with the key in hand**, in either layout and under any
name: the header is read back with every name standing for the key, and the engine undoes what
another of its suite has done. -/
theorem decrypt_append {key : Key} {h : Header} {e keyed : Engine} {m body : Bytes}
    (hb : h.Built) (hk : Engine.keyFor .encrypt key h.nonce (h.encodeWith key) e = .ok () keyed)
    (hw : keyed.whole m = .ok body) {d : Desk} (hsuite : d.engine.suite = e.suite) :
    ∃ done, decrypt key (h.encodeWith key ++ body) d = .ok m done := by
  obtain ⟨asked, hread⟩ : ∃ asked, Header.ofBytes (.fixed key) (h.encodeWith key ++ body) [] =
      .ok (h.attach (.fixed key), h.length) asked :=
    Header.ofBytes_encodeWith hb (fun _ _ => rfl) body
  obtain ⟨keyed', hk', hw'⟩ := Engine.whole_whole (Engine.spent_eq_of_suite hsuite) hk hw
  have hkeyed : Engine.keyFor .decrypt key (h.attach (.fixed key)).nonce
      ((h.encodeWith key ++ body).take h.length) d.engine = .ok () keyed' := by
    simpa using hk'
  have hwhole : keyed'.whole ((h.encodeWith key ++ body).drop h.length) = .ok m := by
    simpa using hw'
  exact decrypt_of_whole hread hkeyed hwhole

end WithKey

/-! ## 3. Sealers and headers without a name -/

namespace Sealer

variable {s : Sealer}

/-- A header that names no key has none, and nobody is asked. -/
theorem keyFor_of_unnamed {h : Header} (hname : h.keyName = none) (asked : List String) :
    s.keyFor h asked = .error (.key .missingKeyName) asked := by
  simp only [keyFor, hname]
  rfl

/-- A message whose header names no key is not opened. -/
theorem decrypt_of_unnamed {c : Bytes} {h : Header} {n : Nat} {session : Session}
    (hread : Header.ofBytes s.resolver c session.asked = .ok (h, n) session.asked)
    (hname : h.keyName = none) :
    s.decrypt c session = .error (.key .missingKeyName) session := by
  have hkey : Session.asking (s.keyFor h) session = .error (.key .missingKeyName) session := by
    unfold Session.asking
    rw [keyFor_of_unnamed hname]
  unfold decrypt
  rw [bind_of_ok (Session.asking_of_ok hread)]
  simp only
  rw [bind_of_error hkey]

/-- A stream whose header names no key is not opened, and nothing is written. -/
theorem decryptStream_of_unnamed (hs : s.engine.streams = true) {c : Bytes} {h : Header} {n : Nat}
    {failure : Option TransportError} {t : StreamSession} {reader : Reader}
    (hr : reader.Delivers c failure) (ht : t.source = .ofReader reader)
    (hread : Header.ofBytes s.resolver c t.asked = .ok (h, n) t.asked) (hname : h.keyName = none) :
    ∃ t', s.decryptStream t = .error (.key .missingKeyName) t' ∧ t'.toSession = t.toSession ∧
      t'.writer = t.writer := by
  have halike := StreamSession.alike_header s.resolver hr ht
  rw [Session.asking_of_ok hread] at halike
  obtain ⟨h', t₁, hscan, hh, -, source, rfl, -, -⟩ := halike.of_ok
  obtain rfl : h' = h := hh
  have hkey : StreamSession.inSession (Session.asking (s.keyFor h')) { t with source } =
      .error (.key .missingKeyName) { t with source } := by
    unfold StreamSession.inSession Session.asking
    rw [keyFor_of_unnamed hname]
  refine ⟨{ t with source }, ?_, rfl, rfl⟩
  unfold decryptStream
  rw [bind_of_ok (checkStreams_eq_ok hs), bind_of_ok hscan, bind_of_error hkey]

end Sealer

/-! ## 4. Both ways -/

/-- **The two ways to seal and to open, one against the other.**  For every suite and every key:

* what was sealed with the key in hand is opened with the key in hand, by any engine of the suite;
* so is what a sealer of the suite has sealed, in either layout and under any alias that its
  resolver answers with the key;
* what was sealed with a key in hand is refused by every sealer for want of a key name, whole or as
  a stream, however the stream is delivered: nobody is asked, and the writer is left as it was. -/
theorem key_in_hand_and_under_name {suite : Suite} {key : Key} {m c : Bytes} :
    (∀ sealing after opening : WithKey.Desk, sealing.engine.suite = suite →
      opening.engine.suite = suite → WithKey.encrypt key m sealing = .ok c after →
        ∃ done, WithKey.decrypt key c opening = .ok m done) ∧
    (∀ (s : Sealer) (session after : Session) (opening : WithKey.Desk), s.engine.suite = suite →
      opening.engine.suite = suite →
      s.resolver.answer session.asked s.config.keyAlias = some key →
      s.encrypt m session = .ok c after → ∃ done, WithKey.decrypt key c opening = .ok m done) ∧
    ∀ sealing after : WithKey.Desk, WithKey.encrypt key m sealing = .ok c after →
      ∀ (s : Sealer) (session : Session),
        s.decrypt c session = .error (.key .missingKeyName) session ∧
        (s.engine.suite ≠ .aes128Ccm → ∀ (reader : Reader) (failure : Option TransportError)
          (writer : Writer), reader.Delivers c failure →
            ∃ t, s.decryptStream { session with source := .ofReader reader, writer } =
                .error (.key .missingKeyName) t ∧
              t.toSession = session ∧ t.writer = writer) := by
  refine ⟨?_, ?_, ?_⟩
  · intro sealing after opening hsealing hopening he
    obtain ⟨h, keyed, body, hbuilt, -, hkeyed, hwhole, rfl⟩ := WithKey.encrypt_eq_ok he
    exact WithKey.decrypt_append (h := .plain h) hbuilt hkeyed hwhole
      (hopening.trans hsealing.symm)
  · intro s session after opening hsealing hopening hanswer he
    obtain ⟨h, key', keyed, body, hbuilt, -, hkey, hkeyed, hwhole, rfl⟩ := Sealer.encrypt_eq_ok he
    obtain rfl : key = key' := Option.some.inj (hanswer.symm.trans hkey)
    exact WithKey.decrypt_append hbuilt hkeyed hwhole (hopening.trans hsealing.symm)
  · intro sealing after he s session
    obtain ⟨h, keyed, body, hbuilt, hnone, -, -, rfl⟩ := WithKey.encrypt_eq_ok he
    have hread := Header.ofBytes_plain hbuilt s.resolver session.asked body
    refine ⟨Sealer.decrypt_of_unnamed hread hnone, ?_⟩
    intro hsuite reader failure writer hr
    exact Sealer.decryptStream_of_unnamed (Engine.streams_eq_true.mpr hsuite)
      (t := { session with source := .ofReader reader, writer }) hr rfl hread hnone

/-- Three bytes sealed with a key in hand: an engine that was left in the middle of another message
opens them, and a sealer that would find the same key under every name does not. -/
theorem key_in_hand_and_under_name_three_bytes :
    ∃ c after done,
      WithKey.encrypt ⟨Bytes.zeros 16⟩ [1, 2, 3] ⟨Suite.engine .aes128CbcPkcs7, .random 16 []⟩ =
        .ok c after ∧
      WithKey.decrypt ⟨Bytes.zeros 16⟩ c
          ⟨.cbc ⟨.aes128, some ⟨.encrypt, [], .ofBytes [9], [7, 7]⟩⟩, .random 16 []⟩ =
        .ok [1, 2, 3] done ∧
      Sealer.decrypt
          ⟨{ keyAlias := "k" }, .fixed ⟨Bytes.zeros 16⟩, Suite.engine .aes128CbcPkcs7, 16⟩ c
          ⟨.random 16 [], []⟩ = .error (.key .missingKeyName) ⟨.random 16 [], []⟩ := by
  obtain ⟨c, after, he⟩ : ∃ c after, WithKey.encrypt ⟨Bytes.zeros 16⟩ [1, 2, 3]
      ⟨Suite.engine .aes128CbcPkcs7, .random 16 []⟩ = .ok c after := ⟨_, _, rfl⟩
  obtain ⟨hopens, -, hrefuses⟩ :=
    @key_in_hand_and_under_name .aes128CbcPkcs7 ⟨Bytes.zeros 16⟩ [1, 2, 3] c
  obtain ⟨done, hd⟩ := hopens ⟨Suite.engine .aes128CbcPkcs7, .random 16 []⟩ after
    ⟨.cbc ⟨.aes128, some ⟨.encrypt, [], .ofBytes [9], [7, 7]⟩⟩, .random 16 []⟩ rfl rfl he
  exact ⟨c, after, done, he, hd, (hrefuses _ after he _ _).1⟩

end Envelope

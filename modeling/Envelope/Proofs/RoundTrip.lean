/-
# What is sealed can be opened

A ciphertext says everything that opening it needs, but for the key: the header carries the nonce
and the alias, and its layout is recognised by its first four bytes.  So whoever finds the same key
under the alias can open it, whatever alias, layout, chunk size or source of nonces they seal with
themselves (`decrypt_encrypt`).

The proof takes a sealing apart into what it is made of (`encrypt_eq_ok`) and puts the opening
together from the same pieces (`decrypt_append`): the header is read back from its encoding, the key
is found again, and the engine undoes itself.
-/
import Envelope.Proofs.Engine.RoundTrip
import Envelope.Proofs.Sealer

namespace Envelope

/-! ## 1. Sealers that were set up -/

/-- What a configuration that is valid is like. -/
theorem Config.validate_eq_ok {config : Config} (h : config.validate = .ok ()) :
    config.keyAlias.utf8ByteSize ≠ 0 ∧ config.keyAlias.utf8ByteSize ≤ maxKeyName ∧
      keyNameEnd ∉ Bytes.ofText config.keyAlias ∧ 0 < config.chunkSize ∧
      config.chunkSize ≤ maxChunk := by
  unfold validate at h
  split_ifs at h with hz hl hm hc
  exact ⟨hz, by omega, hm, by omega, by omega⟩

namespace Sealer

/-- **What setting up a sealer checks**, and what the sealer is made of. -/
theorem new_eq_ok_iff {engine : Engine} {resolver : Resolver} {nonces : NonceSource}
    {config : Config} {s : Sealer} :
    new engine resolver nonces config = .ok s ↔
      config.validate = .ok () ∧ checkNonceLength nonces.length = .ok () ∧
        engine.nonceWidth = nonces.length ∧ s = ⟨config, resolver, engine, nonces.length⟩ := by
  unfold new
  cases config.validate with
  | error e => simp [bind, Except.bind]
  | ok _ =>
    cases checkNonceLength nonces.length with
    | error e => simp [bind, Except.bind]
    | ok _ =>
      by_cases hw : engine.nonceWidth = nonces.length
      · simp [bind, Except.bind, pure, Except.pure, hw, eq_comm]
      · simp [bind, Except.bind, hw, throw, throwThe, MonadExceptOf.throw]

/-- **What a sealer that was set up is made of**, and that its configuration is valid. -/
theorem new_eq_ok {engine : Engine} {resolver : Resolver} {nonces : NonceSource} {config : Config}
    {s : Sealer} (h : new engine resolver nonces config = .ok s) :
    config.validate = .ok () ∧ s = ⟨config, resolver, engine, nonces.length⟩ := by
  obtain ⟨hvalid, -, -, hs⟩ := new_eq_ok_iff.mp h
  exact ⟨hvalid, hs⟩

/-! ## 2. What a sealing is made of -/

variable {s : Sealer}

/-- A new header is one that its constructor builds, under the alias. -/
theorem newHeader_eq_ok {session session' : Session} {h : Header}
    (hh : s.newHeader session = .ok h session') :
    h.Built ∧ h.keyName = some s.config.keyAlias ∧ session'.asked = session.asked := by
  unfold newHeader at hh
  rw [bind_eq_ok] at hh
  obtain ⟨nonce, session₁, hnonce, hh⟩ := hh
  have hasked : session₁.asked = session.asked := by
    cases hg : NonceSource.generate session.nonces with
    | error e nonces => rw [Session.nonce_of_error hg] at hnonce; simp at hnonce
    | ok bytes nonces =>
      rw [Session.nonce_of_ok hg] at hnonce
      obtain ⟨-, rfl⟩ := EStateM.Result.ok.inj hnonce
      rfl
  cases hp : s.config.policy with
  | plain =>
    simp only [hp] at hh
    rw [bind_eq_ok] at hh
    obtain ⟨p, session₂, hp, hh⟩ := hh
    obtain ⟨hnew, rfl⟩ := Session.result_eq_ok hp
    obtain ⟨rfl, rfl⟩ := EStateM.Result.ok.inj hh
    obtain ⟨rfl, -, -⟩ := PlainHeader.new_eq_ok.mp hnew
    exact ⟨hnew, rfl, hasked⟩
  | authenticated =>
    simp only [hp] at hh
    rw [bind_eq_ok] at hh
    obtain ⟨a, session₂, ha, hh⟩ := hh
    obtain ⟨hnew, rfl⟩ := Session.result_eq_ok ha
    obtain ⟨rfl, rfl⟩ := EStateM.Result.ok.inj hh
    obtain ⟨rfl, -, -⟩ := AuthenticatedHeader.new_eq_ok.mp hnew
    exact ⟨hnew, rfl, hasked⟩

/-- **A sealing that ends well**: a header that can be built, the key under the alias, an engine
that is keyed with both, and what it makes of the message. -/
theorem encrypt_eq_ok {m c : Bytes} {session session' : Session}
    (he : s.encrypt m session = .ok c session') :
    ∃ (h : Header) (key : Key) (keyed : Engine) (body : Bytes),
      h.Built ∧ h.keyName = some s.config.keyAlias ∧
      s.resolver.answer session.asked s.config.keyAlias = some key ∧
      Engine.keyFor .encrypt key h.nonce (h.encodeWith key) s.engine = .ok () keyed ∧
      keyed.whole m = .ok body ∧ c = h.encodeWith key ++ body := by
  unfold encrypt at he
  rw [bind_eq_ok] at he
  obtain ⟨h, session₁, hh, he⟩ := he
  obtain ⟨hbuilt, hname, hasked⟩ := newHeader_eq_ok hh
  rw [bind_eq_ok] at he
  obtain ⟨key, session₂, hk, he⟩ := he
  simp only at he
  rw [bind_eq_ok] at he
  obtain ⟨keyed, session₃, hresult, he⟩ := he
  obtain ⟨hengine, rfl⟩ := Session.result_eq_ok hresult
  have hkeyed := keyedEngine_eq_ok hengine
  rw [bind_eq_ok] at he
  obtain ⟨⟨body, left⟩, session₄, hresult, he⟩ := he
  obtain ⟨hbody, rfl⟩ := Session.result_eq_ok hresult
  obtain ⟨rfl, rfl⟩ := EStateM.Result.ok.inj he
  refine ⟨h, key, keyed, body, hbuilt, hname, ?_, hkeyed, ?_, rfl⟩
  · obtain ⟨asked, ha, -⟩ := Session.asking_eq_ok hk
    rw [← hasked]
    exact Resolver.answer_of_key ha
  · exact ((Engine.run_transform_eq_ok (Engine.settled_keyFor hkeyed)).mp hbody).1

/-! ## 3. Opening it -/

/-- **Opening what was put together**: the header is read back, the key found, and the body
restored. -/
theorem decrypt_append {h : Header} {key : Key} {keyed : Engine} {name : String} {m body : Bytes}
    {session : Session} {f : String → Option Key} (hr : s.resolver = .ofFunction f)
    (hb : h.Built) (hname : h.keyName = some name) (hne : name ≠ "") (hf : f name = some key)
    (hk : Engine.keyFor .decrypt key h.nonce (h.encodeWith key) s.engine = .ok () keyed)
    (hw : keyed.whole body = .ok m) :
    ∃ session', s.decrypt (h.encodeWith key ++ body) session = .ok m session' := by
  have hanswer : ∀ a, h = .authenticated a →
      s.resolver.answer session.asked a.keyName = some key := by
    rintro a rfl
    rw [hr, ← hf]
    exact congrArg f (Option.some.inj hname)
  obtain ⟨asked, hheader⟩ := Header.ofBytes_encodeWith hb hanswer body
  have hname : (h.attach s.resolver).keyName = some name := by simp [hname]
  have hkey : s.keyFor (h.attach s.resolver) asked = .ok key (asked ++ [name]) :=
    keyFor_of_answer hname hne (by rw [hr]; exact hf)
  refine ⟨_, decrypt_eq_ok.mpr ⟨_, _, key, keyed, _, _, hheader, hkey, ?_, ?_, rfl⟩⟩
  · simpa using hk
  · simpa using hw

/-- **What one sealer has sealed, another one opens** whose engine is of the same kind, and whose
resolver finds the same key under the alias. -/
theorem decrypt_of_encrypt {s' : Sealer} {f f' : String → Option Key} {m c : Bytes}
    {session after : Session} (hr : s.resolver = .ofFunction f) (hr' : s'.resolver = .ofFunction f')
    (hkind : s'.engine.spent = s.engine.spent) (hne : s.config.keyAlias ≠ "")
    (hsame : f' s.config.keyAlias = f s.config.keyAlias)
    (he : s.encrypt m session = .ok c after) (before : Session) :
    ∃ done, s'.decrypt c before = .ok m done := by
  obtain ⟨h, key, keyed, body, hbuilt, hname, hanswer, hkeyed, hbody, rfl⟩ := encrypt_eq_ok he
  obtain ⟨keyed', hkeyed', hback⟩ := Engine.whole_whole hkind hkeyed hbody
  rw [hr] at hanswer
  exact decrypt_append hr' hbuilt hname hne (hsame.trans hanswer) hkeyed' hback

/-! ## 4. The round trip -/

/-- **What was sealed can be opened**, by the sealer that sealed it and by every other one of the
same suite that finds the same key under the alias. -/
theorem decrypt_encrypt {suite : Suite} {f : String → Option Key} {nonces : NonceSource}
    {config : Config} {s : Sealer} (hs : new suite.engine (.ofFunction f) nonces config = .ok s)
    {m c : Bytes} {session after : Session} (he : s.encrypt m session = .ok c after) :
    (∀ before, ∃ done, s.decrypt c before = .ok m done) ∧
    ∀ (f' : String → Option Key) (nonces' : NonceSource) (config' : Config) (s' : Sealer),
      new suite.engine (.ofFunction f') nonces' config' = .ok s' →
        f' config.keyAlias = f config.keyAlias →
          ∀ before, ∃ done, s'.decrypt c before = .ok m done := by
  obtain ⟨hvalid, rfl⟩ := new_eq_ok hs
  obtain ⟨hsize, -⟩ := Config.validate_eq_ok hvalid
  have hne : config.keyAlias ≠ "" := by
    intro h
    rw [h] at hsize
    exact hsize rfl
  constructor
  · intro before
    exact decrypt_of_encrypt rfl rfl rfl hne rfl he before
  · intro f' nonces' config' s' hs' hsame before
    obtain ⟨-, rfl⟩ := new_eq_ok hs'
    exact decrypt_of_encrypt rfl (by rfl) (by rfl) hne hsame he before

/-- Three bytes sealed under an authenticated header and opened by a sealer that itself would use
another alias, plain headers and a counter. -/
theorem decrypt_encrypt_three_bytes :
    ∃ s s' c after done,
      new (Suite.engine .aes128CbcPkcs7) (.ofFunction fun _ => some ⟨Bytes.zeros 16⟩)
        (.random 16 []) { keyAlias := "k", policy := .authenticated } = .ok s ∧
      new (Suite.engine .aes128CbcPkcs7) (.ofFunction fun _ => some ⟨Bytes.zeros 16⟩)
        (.counted (Bytes.zeros 8) 0) { keyAlias := "other" } = .ok s' ∧
      s.encrypt [1, 2, 3] ⟨.random 16 [], []⟩ = .ok c after ∧
      s'.decrypt c ⟨.counted (Bytes.zeros 8) 0, []⟩ = .ok [1, 2, 3] done := by
  obtain ⟨s, hs⟩ : ∃ s, new (Suite.engine .aes128CbcPkcs7)
      (.ofFunction fun _ => some ⟨Bytes.zeros 16⟩) (.random 16 [])
      { keyAlias := "k", policy := .authenticated } = .ok s := ⟨_, rfl⟩
  obtain ⟨s', hs'⟩ : ∃ s', new (Suite.engine .aes128CbcPkcs7)
      (.ofFunction fun _ => some ⟨Bytes.zeros 16⟩) (.counted (Bytes.zeros 8) 0)
      { keyAlias := "other" } = .ok s' := ⟨_, rfl⟩
  obtain ⟨c, after, he⟩ : ∃ c after,
      s.encrypt [1, 2, 3] ⟨.random 16 [], []⟩ = .ok c after := by
    obtain ⟨-, rfl⟩ := new_eq_ok hs
    exact ⟨_, _, rfl⟩
  obtain ⟨done, hd⟩ := (decrypt_encrypt hs he).2 _ _ _ s' hs' rfl
    ⟨.counted (Bytes.zeros 8) 0, []⟩
  exact ⟨s, s', c, after, done, hs, hs', he, hd⟩

end Sealer

end Envelope

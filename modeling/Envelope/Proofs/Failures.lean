/-
# What opening fails with

A ciphertext comes from anywhere, and so do the answers of a resolver and the bytes of a reader.
Whatever they are, opening must blame them and not itself.  `Failure.OfOpening` lists what an
opening can fail with: a header that is not there or not right, a key that is missing or does not
fit, a nonce or a body that cannot be the cipher's, a tag that does not match, padding that is none,
and the failures of the transports.  None of these is internal (`Failure.isInternal`): nobody is
told of a room that was too small, an engine that was not keyed, a look-back that was exceeded, or
a state or configuration that opening has no part in (`fails_cleanly`).

The list is made from what each step can fail with.  For the header that is `Header.fails_decode`.
For the body it is `Engine.ofBody_of_whole`: room is no matter there, because a body is what `whole`
makes of it, and the last block without its padding is never longer than the block.
-/
import Envelope.Proofs.Fronts

namespace Envelope

/-! ## 1. Failures -/

/-- **A failure that is about this library**, not about its input: no caller can do anything about
it. -/
def Failure.isInternal : Failure → Bool
  | .encoding (.versionMismatch _) | .encoding (.rewindUnsupported _ _)
  | .encoding .keyNameContainsNul => true
  | .cipher (.outputTooSmall _ _) | .cipher (.overfull _) | .cipher .notInitialized
  | .cipher .tagMismatch | .cipher (.invalidKeyLength _ _) | .cipher (.refused _) => true
  | .state _ | .config _ => true
  | _ => false

/-- **What is said of a body that an engine does not open.**  An authenticating engine says that the
tag is wrong, or that there is no room for one. -/
inductive Failure.OfBody (e : Engine) (body : Bytes) : Failure → Prop where
  | forged (aead : e.isAead = true) (long : bodyTagWidth ≤ body.length) :
      OfBody e body (.authentication .bodyTag)
  | short (aead : e.isAead = true) (short : body.length < bodyTagWidth) :
      OfBody e body (.cipher (.invalidCiphertextLength body.length))
  /-- No whole number of blocks, or none at all; what is said is the length of the last piece. -/
  | ragged (cbc : e.isAead = false) :
      OfBody e body (.cipher (.invalidCiphertextLength
        (body.length - Cbc.ready .decrypt body.length)))
  | padding (cbc : e.isAead = false) : OfBody e body (.cipher .badPadding)

/-- What is said of a body that an authenticating engine does not open: its length alone decides. -/
def Failure.rejected (body : Bytes) : Failure :=
  if body.length < bodyTagWidth then .cipher (.invalidCiphertextLength body.length)
  else .authentication .bodyTag

/-- **What opening can fail with**, for a sealer with this engine. -/
inductive Failure.OfOpening (e : Engine) : Failure → Prop where
  | header {f : Failure} (h : f.OfHeader) : OfOpening e f
  | unnamed : OfOpening e (.key .missingKeyName)
  | unknown (name : String) : OfOpening e (.key (.notFound name))
  | keyLength (actual : Nat) : OfOpening e (.key (.invalidLength e.algorithm actual))
  | nonceLength (actual : Nat) : OfOpening e (.cipher (.invalidNonceLength e.nonceWidth actual))
  | body {body : Bytes} {f : Failure} (h : f.OfBody e body) : OfOpening e f
  | transport (err : TransportError) : OfOpening e (.transport err)
  | unsupported : OfOpening e (.unsupported (.needsWholeMessage e.algorithm))

namespace Failure

/-- An authenticating engine tells the two apart by the length. -/
theorem OfBody.eq_rejected {e : Engine} {body : Bytes} {f : Failure} (h : f.OfBody e body)
    (haead : e.isAead = true) : f = rejected body := by
  cases h with
  | forged _ long => rw [rejected, if_neg (Nat.not_lt.mpr long)]
  | short _ short => rw [rejected, if_pos short]
  | ragged cbc => simp [haead] at cbc
  | padding cbc => simp [haead] at cbc

/-- What reading a header fails with is about the header. -/
theorem OfHeader.external {f : Failure} (h : f.OfHeader) :
    f.isInternal = false ∧ ∀ err, f ≠ .cipher err := by
  cases h with
  | undelivered h => cases h <;> exact ⟨rfl, by simp [Failure.truncated]⟩
  | plain h => cases h <;> exact ⟨rfl, by simp⟩
  | name h => cases h <;> exact ⟨rfl, by simp⟩
  | unknown name => exact ⟨rfl, by simp⟩
  | tag => exact ⟨rfl, by simp⟩

/-- **Nothing that opening fails with is internal**, and only the ciphers that pad speak of
padding. -/
theorem OfOpening.external {e : Engine} {f : Failure} (h : f.OfOpening e) :
    f.isInternal = false ∧ (f = .cipher .badPadding → e.isAead = false) := by
  cases h with
  | header h => exact ⟨h.external.1, fun hp => absurd hp (h.external.2 _)⟩
  | unnamed => exact ⟨rfl, by simp⟩
  | unknown name => exact ⟨rfl, by simp⟩
  | keyLength actual => exact ⟨rfl, by simp⟩
  | nonceLength actual => exact ⟨rfl, by simp⟩
  | body h =>
    cases h with
    | forged => exact ⟨rfl, by simp⟩
    | short => exact ⟨rfl, by simp⟩
    | ragged => exact ⟨rfl, by simp⟩
    | padding cbc => exact ⟨rfl, fun _ => cbc⟩
  | transport err => exact ⟨rfl, by simp⟩
  | unsupported => exact ⟨rfl, by simp⟩

end Failure

/-! ## 2. Engines -/

namespace Engine

variable {e e' keyed : Engine} {direction : Direction} {key : Key} {nonce header : Bytes}

/-- **Keying fails for the length of the key or of the nonce**, whichever is wrong. -/
theorem keyFor_eq_error {f : Failure} (h : keyFor direction key nonce header e = .error f e') :
    f = .key (.invalidLength e.algorithm key.bytes.length) ∧
        key.bytes.length ≠ e.suite.keyWidth ∨
      f = .cipher (.invalidNonceLength e.nonceWidth nonce.length) ∧
        nonce.length ≠ e.nonceWidth := by
  unfold keyFor at h
  obtain e | e := e
  · simp only [init, lift, AeadEngine.init] at h
    by_cases hn : nonce.length ≠ e.cipher.nonceWidth
    · rw [if_pos hn] at h
      exact Or.inr ⟨(EStateM.Result.error.inj h).1.symm, hn⟩
    · rw [if_neg hn] at h
      by_cases hk : key.bytes.length ≠ e.cipher.keyWidth
      · rw [if_pos hk] at h
        exact Or.inl ⟨(EStateM.Result.error.inj h).1.symm, by rwa [keyWidth_aead]⟩
      · rw [if_neg hk] at h
        simp at h
  · simp only [init, lift, CbcEngine.init] at h
    by_cases hk : key.bytes.length ≠ e.width.bytes
    · rw [if_pos hk] at h
      exact Or.inl ⟨(EStateM.Result.error.inj h).1.symm, by rwa [keyWidth_cbc]⟩
    · rw [if_neg hk] at h
      by_cases hn : nonce.length ≠ cbcNonce
      · rw [if_pos hn] at h
        exact Or.inr ⟨(EStateM.Result.error.inj h).1.symm, hn⟩
      · rw [if_neg hn] at h
        simp at h

/-- An engine that refuses the length of a key is heard as a failure of the key. -/
theorem keyFor_of_refused {expected : List Nat} {actual : Nat}
    (h : e.init direction key nonce header = .error (.invalidKeyLength expected actual) e') :
    keyFor direction key nonce header e = .error (.key (.invalidLength e.algorithm actual)) e' := by
  unfold keyFor
  rw [h]

/-- **A body that an engine does not open is at fault**, in one of the listed ways. -/
theorem ofBody_of_whole (hk : keyFor .decrypt key nonce header e = .ok () keyed) {body : Bytes}
    {err : EngineError} (hw : keyed.whole body = .error err) :
    Failure.OfBody e body (.ofEngine err) := by
  obtain ⟨cipher, state⟩ | ⟨width, state⟩ := e
  · obtain ⟨-, -, rfl⟩ := keyFor_aead.mp hk
    rw [whole_aead, List.nil_append] at hw
    unfold Aead.State.transform at hw
    simp only at hw
    split at hw
    · rename_i hshort
      obtain rfl := Except.error.inj hw
      exact .short rfl hshort
    · rename_i hlong
      split at hw
      · simp at hw
      · obtain rfl := Except.error.inj hw
        exact .forged rfl (Nat.not_lt.mp hlong)
  · obtain ⟨-, -, rfl⟩ := keyFor_cbc.mp hk
    obtain ⟨s, hs⟩ : ∃ s : Cbc.State, s = ⟨.decrypt, Aes.expandKey key.bytes, .ofBytes nonce, []⟩ :=
      ⟨_, rfl⟩
    rw [← hs] at hw
    have hclose : (s.feed body).2.close = .error err := by
      simp only [whole, feed, close] at hw
      cases hc : (s.feed body).2.close with
      | error err' =>
        rw [hc] at hw
        obtain rfl := Except.error.inj hw
        rfl
      | ok out => simp [hc, Except.map] at hw
    have hpending : (s.feed body).2.pending.length =
        body.length - Cbc.ready .decrypt body.length := by
      rw [s.length_pending_feed, hs, List.length_nil, Nat.zero_add]
    rcases Cbc.State.close_eq_error (by rw [s.direction_feed, hs]) hclose with rfl | rfl
    · rw [hpending]
      exact .ragged rfl
    · exact .padding rfl

end Engine

/-- **A transfer that opens fails for a transport**, or because the engine does not open what it was
fed. -/
theorem Transfer.inward_eq_error {t t' : Transfer} {header : Bytes} {size : Nat} {f : Failure}
    (he : t.engine.Settled) (h : inward header size t = .error f t') :
    (∃ err, f = .transport err) ∨
      ∃ fed err, (0 < size → t.source.EndsBehind fed) ∧ t.engine.whole fed = .error err ∧
        f = .ofEngine err := by
  have houtcome := body_outcome (t := { t with counts := t.counts.addHeader header.length }) size he
  have hbody : body size { t with counts := t.counts.addHeader header.length } = .error f t' := h
  rw [hbody] at houtcome
  cases houtcome with
  | broken => exact Or.inl ⟨_, rfl⟩
  | unreleased => exact Or.inl ⟨_, rfl⟩
  | refused ends whole => exact Or.inr ⟨_, _, ends, whole, rfl⟩

/-! ## 3. Steps -/

section

variable {α : Type} {ways : Failure → Prop}

/-- Questions fail within a session as they do outside. -/
theorem Session.fails_asking {call : Asking α} (h : Fails ways call) :
    Fails ways (asking call) := by
  intro s s' e he
  unfold asking at he
  cases hc : call s.asked with
  | ok a asked => simp [hc] at he
  | error err asked =>
    rw [hc] at he
    obtain ⟨rfl, -⟩ := EStateM.Result.error.inj he
    exact h _ _ _ hc

theorem Session.fails_result {x : Except Failure α} (h : ∀ e, x = .error e → ways e) :
    Fails ways (result x) := by
  cases x with
  | ok a => exact Fails.pure a
  | error e => exact Fails.throw (h e rfl)

namespace StreamSession

theorem fails_inSession {call : InSession α} (h : Fails ways call) :
    Fails ways (inSession call) := by
  intro t t' e he
  unfold inSession at he
  cases hc : call t.toSession with
  | ok a session => simp [hc] at he
  | error err session =>
    rw [hc] at he
    obtain ⟨rfl, -⟩ := EStateM.Result.error.inj he
    exact h _ _ _ hc

theorem fails_scanning {call : Scan StreamSource α} (h : Fails ways call) :
    Fails ways (scanning call) := by
  intro t t' e he
  obtain ⟨scan, hc, -⟩ := scanning_eq_error he
  exact h _ _ _ hc

/-- A stream fails as the transfer does. -/
theorem transferring_eq_error {engine : Engine} {stages : StageTimes}
    {call : EStateM Failure Transfer Unit} {t t' : StreamSession} {e : Failure}
    (h : transferring engine stages call t = .error e t') :
    ∃ t₁, call { engine, source := t.source, writer := t.writer, stages } = .error e t₁ := by
  unfold transferring at h
  cases hc : call { engine, source := t.source, writer := t.writer, stages } with
  | ok _ t₁ => simp [hc] at h
  | error err t₁ =>
    rw [hc] at h
    obtain ⟨rfl, -⟩ := EStateM.Result.error.inj h
    exact ⟨t₁, rfl⟩

end StreamSession

end

namespace Sealer

variable {s : Sealer}

/-- Looking for the key of a header fails for the want of a name, or of a key for it. -/
theorem fails_keyFor (h : Header) : Fails (Failure.OfOpening s.engine) (s.keyFor h) := by
  intro asked asked' e he
  obtain ⟨_, rfl, rfl | ⟨name, rfl⟩⟩ := keyFor_eq_error he
  · exact .unnamed
  · exact .unknown name

/-- Keying fails where the engine does. -/
theorem keyedEngine_eq_error {direction : Direction} {key : Key} {nonce header : Bytes}
    {f : Failure} (h : s.keyedEngine direction key nonce header = .error f) :
    ∃ e', Engine.keyFor direction key nonce header s.engine = .error f e' := by
  unfold keyedEngine Engine.run at h
  cases hk : Engine.keyFor direction key nonce header s.engine with
  | ok _ e' =>
    rw [hk] at h
    exact absurd h (by simp [bind, Except.bind, pure, Except.pure])
  | error err e' =>
    rw [hk] at h
    obtain rfl := Except.error.inj h
    exact ⟨e', rfl⟩

theorem keyedEngine_of_error {direction : Direction} {key : Key} {nonce header : Bytes}
    {f : Failure} {e' : Engine}
    (h : Engine.keyFor direction key nonce header s.engine = .error f e') :
    s.keyedEngine direction key nonce header = .error f := by
  unfold keyedEngine Engine.run
  rw [h]
  rfl

theorem fails_keyedEngine (direction : Direction) (key : Key) (nonce header : Bytes) :
    Fails (Failure.OfOpening s.engine)
      (Session.result (s.keyedEngine direction key nonce header)) := by
  refine Session.fails_result fun f hf => ?_
  obtain ⟨e', hk⟩ := keyedEngine_eq_error hf
  rcases Engine.keyFor_eq_error hk with ⟨rfl, -⟩ | ⟨rfl, -⟩
  · exact .keyLength _
  · exact .nonceLength _

/-! ## 4. Whole messages -/

/-- **A body that is not opened is at fault**, once an engine is keyed for it. -/
theorem fails_openBody {k : Keying} {keyed : Engine}
    (hk : s.keyedEngine .decrypt k.key k.nonce k.header = .ok keyed) (body : Bytes) :
    Fails (Failure.OfBody s.engine body) (s.openBody k body) := by
  have hkeyed := keyedEngine_eq_ok hk
  unfold openBody
  rw [hk]
  refine (Session.fails_result (by simp)).bind_of fun session keyed' session' hresult => ?_
  obtain ⟨hsame, -⟩ := Session.result_eq_ok hresult
  obtain rfl := Except.ok.inj hsame
  refine (Session.fails_result fun f hf => ?_).bind fun _ => .pure _
  rw [Engine.run, Engine.transform_eq_whole (Engine.settled_keyFor hkeyed)] at hf
  cases hw : keyed.whole body with
  | ok out => simp [hw] at hf
  | error err =>
    rw [hw] at hf
    obtain rfl := Except.error.inj hf
    exact Engine.ofBody_of_whole hkeyed hw

/-- **What opening a whole message can fail with**, for every resolver and every byte string. -/
theorem fails_decrypt (c : Bytes) : Fails (Failure.OfOpening s.engine) (s.decrypt c) := by
  have hread : Fails (Failure.OfOpening s.engine) (Header.ofBytes s.resolver c) := by
    intro asked asked' e he
    unfold Header.ofBytes at he
    split at he
    · simp at he
    · rename_i err scan hd
      obtain ⟨rfl, -⟩ := EStateM.Result.error.inj he
      exact .header (Header.fails_decode s.resolver _ _ _ hd)
  rw [decrypt_eq_keying]
  refine Fails.bind ?_ fun found => ?_
  · exact (Session.fails_asking hread).bind fun found =>
      (Session.fails_asking (fails_keyFor found.1)).bind fun _ => .pure _
  · cases hk : s.keyedEngine .decrypt found.1.key found.1.nonce found.1.header with
    | ok keyed => exact (fails_openBody hk found.2).mono fun _ => .body
    | error f =>
      unfold openBody
      refine (fails_keyedEngine _ _ _ _).bind_of fun session keyed session' hresult => ?_
      rw [hk] at hresult
      obtain ⟨hok, -⟩ := Session.result_eq_ok hresult
      simp at hok

/-! ## 5. Streams -/

/-- What the beginning of opening a stream can fail with, up to the engine that is keyed. -/
theorem fails_streamOpening : Fails (Failure.OfOpening s.engine) s.streamOpening := by
  have hcheck : ∀ e, s.checkStreams = .error e → Failure.OfOpening s.engine e := by
    intro e he
    unfold checkStreams at he
    split at he
    · simp at he
    · obtain rfl := Except.error.inj he
      exact .unsupported
  have hheader : Fails (Failure.OfOpening s.engine)
      (Header.decode s.resolver : Scan StreamSource Header) :=
    (Header.fails_decode s.resolver).mono fun _ => .header
  have hkeying : Fails (Failure.OfOpening s.engine) s.streamKeying :=
    (StreamSession.fails_scanning hheader).bind fun h =>
      (StreamSession.fails_inSession (Session.fails_asking (fails_keyFor h))).bind fun _ => .pure _
  refine (StreamSession.fails_inSession (Session.fails_result hcheck)).bind fun _ => ?_
  refine hkeying.bind fun k => ?_
  exact (StreamSession.fails_inSession (fails_keyedEngine _ _ _ _)).bind fun _ => .pure _

/-- **What the rest of a stream can fail with**: a transport, or a body that is at fault. -/
theorem rest_eq_error {begun : Bytes × Engine} {t t₁ t' : StreamSession} {f : Failure}
    (ho : s.streamOpening t = .ok begun t₁)
    (h : (StreamSession.transferring begun.2 stagesBefore
      (Transfer.inward begun.1 s.config.chunkSize) >>= fun out => pure out.1) t₁ = .error f t') :
    (∃ err, f = .transport err) ∨
      ∃ body, (0 < s.config.chunkSize → t₁.source.EndsBehind body) ∧ f.OfBody s.engine body := by
  obtain ⟨_, _, _, _, -, -, -, hkeyed, -⟩ := streamOpening_eq_ok ho
  cases htransfer : StreamSession.transferring begun.2 stagesBefore
      (Transfer.inward begun.1 s.config.chunkSize) t₁ with
  | ok out t₂ =>
    rw [bind_of_ok htransfer] at h
    simp at h
  | error e t₂ =>
    rw [bind_of_error htransfer] at h
    obtain ⟨rfl, -⟩ := EStateM.Result.error.inj h
    obtain ⟨t₃, hinward⟩ := StreamSession.transferring_eq_error htransfer
    rcases Transfer.inward_eq_error (Engine.settled_keyFor hkeyed) hinward with
      htransport | ⟨body, err, hends, hwhole, rfl⟩
    · exact Or.inl htransport
    · exact Or.inr ⟨body, hends, Engine.ofBody_of_whole hkeyed hwhole⟩

/-- **What opening a stream can fail with**, for every resolver, reader and writer. -/
theorem fails_decryptStream : Fails (Failure.OfOpening s.engine) s.decryptStream := by
  intro t t' f h
  rw [decryptStream_eq_opening] at h
  cases ho : s.streamOpening t with
  | error e t₁ =>
    rw [bind_of_error ho] at h
    obtain ⟨rfl, -⟩ := EStateM.Result.error.inj h
    exact fails_streamOpening t t₁ e ho
  | ok begun t₁ =>
    rw [bind_of_ok ho] at h
    rcases rest_eq_error ho h with ⟨err, rfl⟩ | ⟨body, -, hbody⟩
    · exact .transport err
    · exact .body hbody

/-! ## 6. Both -/

/-- **A sealer whose openings never fail for a reason of their own.** -/
structure FailsCleanly (s : Sealer) : Prop where
  /-- Opening a whole message fails with what is listed, with nothing internal, and for padding only
  where there is padding. -/
  whole : ∀ c session f after, s.decrypt c session = .error f after →
    f.OfOpening s.engine ∧ f.isInternal = false ∧
      (f = .cipher .badPadding → s.engine.isAead = false)
  /-- So does opening a stream, for every reader, every writer and every size of the chunks. -/
  stream : ∀ t f t', s.decryptStream t = .error f t' →
    f.OfOpening s.engine ∧ f.isInternal = false ∧
      (f = .cipher .badPadding → s.engine.isAead = false)
  /-- Once an authenticating engine is keyed, its length decides what is said of a body. -/
  body : s.engine.isAead = true → ∀ c session k body session' keyed,
    s.keying c session = .ok (k, body) session' →
    s.keyedEngine .decrypt k.key k.nonce k.header = .ok keyed →
    ∀ f after, s.decrypt c session = .error f after → f = .rejected body
  /-- So it does on a stream, unless a transport fails first. -/
  streamBody : s.engine.isAead = true → 0 < s.config.chunkSize → ∀ t begun t₁,
    s.streamOpening t = .ok begun t₁ → ∀ body failure, t₁.source.Delivers body failure →
    ∀ f t', s.decryptStream t = .error f t' →
      (∃ err, f = .transport err) ∨ failure = none ∧ f = .rejected body
  /-- An engine that refuses the length of the key it is given is heard as a failure of the key. -/
  key : ∀ c session k body session' expected actual e',
    s.keying c session = .ok (k, body) session' →
    s.engine.init .decrypt k.key k.nonce k.header = .error (.invalidKeyLength expected actual) e' →
    s.decrypt c session = .error (.key (.invalidLength s.algorithm actual)) session'
  /-- So it is on a stream. -/
  streamKey : s.engine.streams = true → ∀ t k t₁ expected actual e',
    s.streamKeying t = .ok k t₁ →
    s.engine.init .decrypt k.key k.nonce k.header = .error (.invalidKeyLength expected actual) e' →
    s.decryptStream t = .error (.key (.invalidLength s.algorithm actual)) t₁

/-- **Every sealer fails cleanly**: whatever its engine, its resolver and its configuration are, and
whatever it is given to open. -/
theorem fails_cleanly (s : Sealer) : s.FailsCleanly where
  whole c session f after h := by
    have hf := fails_decrypt c session after f h
    exact ⟨hf, hf.external⟩
  stream t f t' h := by
    have hf := fails_decryptStream t t' f h
    exact ⟨hf, hf.external⟩
  body haead c session k body session' keyed hk hkeyed f after h := by
    rw [decrypt_eq_keying, bind_of_ok hk] at h
    exact (fails_openBody hkeyed body _ _ _ h).eq_rejected haead
  streamBody haead hchunk t begun t₁ ho body failure hd f t' h := by
    rw [decryptStream_eq_opening, bind_of_ok ho] at h
    rcases rest_eq_error ho h with htransport | ⟨fed, hends, hbody⟩
    · exact Or.inl htransport
    · obtain ⟨hnone, rfl⟩ := hends hchunk body failure hd
      exact Or.inr ⟨hnone, hbody.eq_rejected haead⟩
  key c session k body session' expected actual e' hk hrefused := by
    have hkeyed := keyedEngine_of_error (Engine.keyFor_of_refused hrefused)
    rw [decrypt_eq_keying, bind_of_ok hk]
    simp only [openBody, hkeyed]
    rfl
  streamKey hs t k t₁ expected actual e' hk hrefused := by
    have hkeyed := keyedEngine_of_error (Engine.keyFor_of_refused hrefused)
    rw [decryptStream_eq_keying, bind_of_ok (checkStreams_eq_ok hs), bind_of_ok hk]
    simp only [openRest, hkeyed]
    rfl

/-- Three bytes behind a header that is in order, under a key that fits: a body that is too short
for a tag, and nothing else is said of it. -/
theorem fails_cleanly_three_bytes :
    ∃ (s : Sealer) (k : Keying) (keyed : Engine) (f : Failure) (done after : Session),
      s.keying (PlainHeader.encode ⟨Bytes.zeros 12, some "k"⟩ ++ [1, 2, 3]) ⟨.random 12 [], []⟩ =
        .ok (k, [1, 2, 3]) done ∧
      s.keyedEngine .decrypt k.key k.nonce k.header = .ok keyed ∧
      s.decrypt (PlainHeader.encode ⟨Bytes.zeros 12, some "k"⟩ ++ [1, 2, 3]) ⟨.random 12 [], []⟩ =
        .error f after ∧
      f = .cipher (.invalidCiphertextLength 3) ∧ f.isInternal = false := by
  obtain ⟨s, hs⟩ : ∃ s : Sealer, s =
      ⟨{ keyAlias := "k" }, .fixed ⟨Bytes.zeros 16⟩, Suite.engine .aes128Gcm, 12⟩ := ⟨_, rfl⟩
  obtain ⟨p, hp⟩ : ∃ p : PlainHeader, p = ⟨Bytes.zeros 12, some "k"⟩ := ⟨_, rfl⟩
  have hb : Header.Built (.plain p) := by
    rw [hp]
    exact PlainHeader.new_eq_ok.mpr ⟨rfl, by decide, by simp; decide⟩
  have hread := Header.ofBytes_plain hb s.resolver [] [1, 2, 3]
  have hkey : s.keyFor (.plain p) [] = .ok ⟨Bytes.zeros 16⟩ ["k"] :=
    keyFor_of_answer (by rw [hp]; rfl) (by decide) (by rw [hs]; rfl)
  have hk : s.keying (p.encode ++ [1, 2, 3]) ⟨.random 12 [], []⟩ = _ :=
    keying_of_ofBytes hread hkey
  rw [← p.length_encode, List.take_left, List.drop_left] at hk
  obtain ⟨keyed, hkeyed⟩ : ∃ keyed, s.keyedEngine .decrypt ⟨Bytes.zeros 16⟩ p.nonce p.encode =
      .ok keyed := by
    rw [hs, hp]
    exact ⟨_, rfl⟩
  obtain ⟨f, after, hf⟩ : ∃ f after, s.decrypt (p.encode ++ [1, 2, 3]) ⟨.random 12 [], []⟩ =
      .error f after := by
    rw [hs, hp]
    exact ⟨_, _, rfl⟩
  have haead : s.engine.isAead = true := by rw [hs]; rfl
  have hrejected := s.fails_cleanly.body haead _ _ _ _ _ _ hk hkeyed f after hf
  rw [← hp]
  exact ⟨s, _, keyed, f, _, after, hk, hkeyed, hf, hrejected,
    (s.fails_cleanly.whole _ _ _ _ hf).2.1⟩

end Sealer

end Envelope

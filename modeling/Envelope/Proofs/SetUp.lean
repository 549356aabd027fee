/-
# What is checked at the beginning is enough

Setting up a sealer checks the alias, the chunk size, the length of nonce that the source announces,
and that the engine takes nonces of this length.  Sealing checks much of it again, in other places
and by other bounds: the header's constructors look at the nonce and the key name, the engine at the
nonce, and every call of it at the room.  None of these checks can fail once the sealer is set up
(`set_up_suffices`), whatever the layout of the headers is.

What is left that a sealing can fail with is listed in `Failure.OfSealing`: the source has no nonce
to give, nothing or the wrong thing answers to the alias, or the message is longer than the cipher
takes.  All of it can change from call to call, and none of it is known at the beginning.  The one
thing that has to be asked of the source is that its nonces are as long as it says, at this call and
at every later one (`Gives`).  Counters and chance keep their word (`gives_of_isOwn_eq_false`); of a
source of the owner's own it has to be assumed, and such a source may also fail with whatever it
likes, even with a failure that setting up has excluded everywhere else.
-/
import Envelope.Proofs.Engine.Standard
import Envelope.Proofs.Failures
import Envelope.Proofs.Nonce
import Envelope.Proofs.Streaming

namespace Envelope

/-! ## 1. Sources that keep their word -/

namespace NonceSource

/-- The source as `k` calls leave it. -/
def later : (k : Nat) → NonceSource → NonceSource
  | 0, source => source
  | k + 1, source => later k (leftBy (generate source))

/-- **The source gives nonces of `n` bytes**, as it announces: now, and at every later call. -/
structure Gives (n : Nat) (source : NonceSource) : Prop where
  announced : source.length = n
  given : ∀ k bytes after, generate (later k source) = .ok bytes after → bytes.length = n

variable {n : Nat} {source : NonceSource}

/-- Whether the source is its owner's own. -/
def isOwn : NonceSource → Bool
  | .own _ _ _ => true
  | _ => false

@[simp] theorem leftBy_answering (answer : Except Failure Bytes) (source : NonceSource) :
    leftBy (answering answer source) = source := by
  cases answer <;> rfl

theorem answering_eq_ok {answer : Except Failure Bytes} {bytes : Bytes} {after : NonceSource} :
    answering answer source = .ok bytes after ↔ answer = .ok bytes ∧ source = after := by
  cases answer <;> simp [answering]

theorem answering_eq_error {answer : Except Failure Bytes} {f : Failure} {after : NonceSource} :
    answering answer source = .error f after ↔ answer = .error f ∧ source = after := by
  cases answer <;> simp [answering]

/-- **A call changes neither the length that is announced nor the kind of the source.** -/
theorem kind_generate (source : NonceSource) :
    (leftBy (generate source)).length = source.length ∧
      (leftBy (generate source)).isOwn = source.isOwn := by
  cases source with
  | counted fixedPart next =>
    rcases Nat.lt_or_ge next counterEnd with hlt | hge
    · rw [generate_of_lt hlt]
      exact ⟨rfl, rfl⟩
    · rw [generate_of_le hge]
      exact ⟨rfl, rfl⟩
  | random n draws =>
    simp only [generate, leftBy_answering]
    exact ⟨rfl, rfl⟩
  | own announced answers afterwards =>
    simp only [generate, leftBy_answering]
    exact ⟨rfl, rfl⟩

/-- Nor do any number of calls. -/
theorem kind_later (k : Nat) (source : NonceSource) :
    (later k source).length = source.length ∧ (later k source).isOwn = source.isOwn := by
  induction k generalizing source with
  | zero => exact ⟨rfl, rfl⟩
  | succ k ih =>
    obtain ⟨hlength, hown⟩ := kind_generate source
    rw [later, (ih _).1, (ih _).2]
    exact ⟨hlength, hown⟩

/-- A nonce that was counted or drawn is as long as announced, also when there is not enough of
chance. -/
theorem length_of_generate (hown : source.isOwn = false) {bytes : Bytes} {after : NonceSource}
    (h : generate source = .ok bytes after) : bytes.length = source.length := by
  cases source with
  | counted fixedPart next =>
    simp only [generate] at h
    split at h
    · obtain ⟨rfl, -⟩ := EStateM.Result.ok.inj h
      rw [List.length_append, Bytes.length_ofNatBE, length]
    · simp at h
  | random n draws =>
    obtain ⟨hdrawn, -⟩ := answering_eq_ok.mp h
    unfold drawn at hdrawn
    split at hdrawn
    · obtain rfl := Except.ok.inj hdrawn
      rw [List.length_append, List.length_take, Bytes.zeros, List.length_replicate, length]
      omega
    · simp at hdrawn
  | own announced answers afterwards => simp [isOwn] at hown

/-- **Counters and chance give what they announce**, now and later. -/
theorem gives_of_isOwn_eq_false (h : source.isOwn = false) : source.Gives source.length := by
  refine ⟨rfl, fun k bytes after hk => ?_⟩
  obtain ⟨hlength, hown⟩ := kind_later k source
  rw [length_of_generate (hown.trans h) hk, hlength]

/-- **What a source gives, it gives again.** -/
theorem Gives.generate (h : Gives n source) : Gives n (leftBy (NonceSource.generate source)) :=
  ⟨(kind_generate source).1.trans h.announced, fun k => h.given (k + 1)⟩

/-- **A counter and chance fail for a reason of state**: the counter is at its end, or there is no
randomness. -/
theorem generate_eq_error (hown : source.isOwn = false) {f : Failure} {after : NonceSource}
    (h : NonceSource.generate source = .error f after) : ∃ e, f = .state e := by
  cases source with
  | counted fixedPart next =>
    simp only [NonceSource.generate] at h
    split at h
    · simp at h
    · exact ⟨_, (EStateM.Result.error.inj h).1.symm⟩
  | random n draws =>
    obtain ⟨hdrawn, -⟩ := answering_eq_error.mp h
    unfold drawn at hdrawn
    split at hdrawn
    · simp at hdrawn
    · exact ⟨_, (Except.error.inj hdrawn).symm⟩
  | own announced answers afterwards => simp [isOwn] at hown

end NonceSource

/-! ## 2. Messages that are too long -/

/-- A header is no burden for a cipher that bounds its associated data. -/
theorem Header.Built.length_encodeWith_le {h : Header} (hb : h.Built) (key : Key) :
    (h.encodeWith key).length ≤ 2 ^ 36 := by
  rw [h.length_encodeWith]
  exact hb.bounded.length_le.trans (by decide)

/-- The length of the longest message, for a suite that has a bound. -/
def Suite.longest : Suite → Option Nat
  | .aes128Gcm | .aes256Gcm | .aes128Eax => some (2 ^ 36)
  | .chacha20Poly1305 => some (64 * (2 ^ 32 - 1) - 1)
  | .aes128Ccm => some (2 ^ 24 - 1)
  | .aes128CbcPkcs7 | .aes256CbcPkcs7 => none

/-- The message is within the bound of the suite, if there is one. -/
def Suite.Admits (suite : Suite) (m : Bytes) : Prop :=
  ∀ bound, suite.longest = some bound → m.length ≤ bound

namespace Engine

variable {e keyed : Engine} {key : Key} {nonce header m : Bytes}

/-- Next to associated data that is not too long itself, only the message counts. -/
theorem admits_keyed (cipher : AeadCipher) (state : Option Aead.State) (key nonce m : Bytes)
    {aad : Bytes} (haad : aad.length ≤ 2 ^ 36) :
    (cipher.keyed key nonce aad).admits m.length = true ↔
      (Engine.aead ⟨cipher, state⟩).suite.Admits m := by
  cases cipher <;>
    simp [AeadCipher.keyed, suite, Suite.Admits, Suite.longest, Aead.Gcm.longest, Aead.Eax.longest,
      Aead.Ccm.longest, Aead.Ccm.lengthWidth, Aead.ChaChaPoly.longest] <;>
    omega

/-- **A message is sealed if it is not too long**, and refused if it is. -/
theorem whole_of_sealing (hk : keyFor .encrypt key nonce header e = .ok () keyed)
    (hheader : header.length ≤ 2 ^ 36) :
    (e.suite.Admits m ∧ ∃ body, keyed.whole m = .ok body) ∨
      ¬e.suite.Admits m ∧ keyed.whole m = .error (.refused "AEAD seal failed") := by
  obtain ⟨cipher, state⟩ | ⟨width, state⟩ := e
  · obtain ⟨-, -, rfl⟩ := keyFor_aead.mp hk
    have hadmits := admits_keyed cipher state key.bytes nonce m hheader
    rw [whole_aead, List.nil_append]
    unfold Aead.State.transform Aead.Keyed.seal?
    rw [← hadmits]
    by_cases h : (cipher.keyed key.bytes nonce header).admits m.length = true
    · left
      simp only [if_pos h]
      exact ⟨h, _, rfl⟩
    · exact .inr ⟨h, by simp only [if_neg h]⟩
  · obtain ⟨-, -, rfl⟩ := keyFor_cbc.mp hk
    obtain ⟨ps, -, hwhole⟩ := Cbc.whole_encrypt (Aes.expandKey key.bytes) (.ofBytes nonce) m
    refine .inl ⟨fun bound hbound => ?_, _, hwhole⟩
    cases width <;> simp [suite, Suite.longest] at hbound

end Engine

/-! ## 3. What sealing can fail with -/

/-- **What is left that a sealing can fail with.** -/
inductive Failure.OfSealing (s : Sealer) (session : Session) (m : Bytes) : Failure → Prop where
  /-- The source has no nonce to give. -/
  | source {f : Failure} {after : NonceSource}
      (h : NonceSource.generate session.nonces = .error f after) : OfSealing s session m f
  /-- Nothing answers to the alias. -/
  | unknown (h : s.resolver.answer session.asked s.config.keyAlias = none) :
      OfSealing s session m (.key (.notFound s.config.keyAlias))
  /-- What answers is a key of another cipher. -/
  | keyLength {key : Key} (h : s.resolver.answer session.asked s.config.keyAlias = some key)
      (hlength : key.bytes.length ≠ s.engine.suite.keyWidth) :
      OfSealing s session m (.key (.invalidLength s.algorithm key.bytes.length))
  /-- The cipher does not take a message of this length. -/
  | tooLong (h : ¬s.engine.suite.Admits m) :
      OfSealing s session m (.cipher (.refused "AEAD seal failed"))

/-- A failure that is about something that was checked when the sealer was set up. -/
def Failure.isOfSetUp : Failure → Bool
  | .encoding _ | .config _ => true
  | .cipher (.invalidNonceLength _ _) | .cipher (.outputTooSmall _ _) => true
  | _ => false

/-- **Nothing that was checked is among it**, unless it is what a source of the owner's own says. -/
theorem Failure.OfSealing.not_ofSetUp {s : Sealer} {session : Session} {m : Bytes} {f : Failure}
    (h : f.OfSealing s session m) :
    f.isOfSetUp = false ∨
      session.nonces.isOwn = true ∧
        ∃ after, NonceSource.generate session.nonces = .error f after := by
  cases h with
  | source h =>
    cases hown : session.nonces.isOwn with
    | true => exact .inr ⟨rfl, _, h⟩
    | false =>
      obtain ⟨e, rfl⟩ := NonceSource.generate_eq_error hown h
      exact .inl rfl
  | unknown h => exact .inl rfl
  | keyLength h hlength => exact .inl rfl
  | tooLong h => exact .inl rfl

namespace Sealer

/-! ## 4. One sealing -/

/-- **What setting up has checked.** -/
structure SetUp (s : Sealer) : Prop where
  config : s.config.validate = .ok ()
  header : s.nonceLength ≤ maxNonce
  engine : s.engine.nonceWidth = s.nonceLength

theorem setUp_of_new {engine : Engine} {resolver : Resolver} {nonces : NonceSource}
    {config : Config} {s : Sealer} (h : new engine resolver nonces config = .ok s) : s.SetUp := by
  obtain ⟨hvalid, hlength, hwidth, rfl⟩ := new_eq_ok_iff.mp h
  refine ⟨hvalid, ?_, hwidth⟩
  unfold checkNonceLength at hlength
  split at hlength
  · simp at hlength
  · simp only
    omega

variable {s : Sealer} {session : Session} {m : Bytes}

theorem newHeader_of_error {f : Failure} {nonces : NonceSource}
    (h : NonceSource.generate session.nonces = .error f nonces) :
    s.newHeader session = .error f { session with nonces } := by
  rw [newHeader, bind_of_error (Session.nonce_of_error h)]

/-- **A nonce of the right length makes a header**, in either layout. -/
theorem newHeader_of_nonce (hs : s.SetUp) {nonce : Bytes} {nonces : NonceSource}
    (h : NonceSource.generate session.nonces = .ok nonce nonces)
    (hlength : nonce.length = s.nonceLength) :
    ∃ header : Header, s.newHeader session = .ok header { session with nonces } ∧
      header.nonce = nonce := by
  obtain ⟨hsize, hle, hend, -, -⟩ := Config.validate_eq_ok hs.config
  have hfits : nonce.length ≤ maxNonce := hlength ▸ hs.header
  rw [newHeader, bind_of_ok (Session.nonce_of_ok h)]
  cases s.config.policy with
  | plain =>
    have hnew : PlainHeader.new nonce (some s.config.keyAlias) =
        .ok ⟨nonce, some s.config.keyAlias⟩ :=
      PlainHeader.new_eq_ok.mpr ⟨rfl, hfits, by rintro _ ⟨rfl⟩; exact hle⟩
    simp only [hnew]
    exact ⟨_, rfl, rfl⟩
  | authenticated =>
    have hname := AuthenticatedHeader.checkKeyName_eq_ok.mpr ⟨hsize, hle, hend⟩
    have hnew : AuthenticatedHeader.new nonce s.config.keyAlias =
        .ok ⟨nonce, s.config.keyAlias, none⟩ :=
      AuthenticatedHeader.new_eq_ok.mpr ⟨rfl, hname, hfits⟩
    simp only [hnew]
    exact ⟨_, rfl, rfl⟩

/-- **Sealing begins with an engine that is keyed**, or fails for a reason that is listed. -/
theorem sealing_cases (hs : s.SetUp) (hg : session.nonces.Gives s.nonceLength) (m : Bytes) :
    (∃ begun after key nonce header, s.sealing session = .ok begun after ∧
      Engine.keyFor .encrypt key nonce header s.engine = .ok () begun.2 ∧
      header.length ≤ 2 ^ 36) ∨
      ∃ f after, s.sealing session = .error f after ∧ f.OfSealing s session m := by
  unfold sealing
  cases hgen : NonceSource.generate session.nonces with
  | error f nonces =>
    rw [bind_of_error (newHeader_of_error hgen)]
    exact .inr ⟨f, _, rfl, .source hgen⟩
  | ok nonce nonces =>
    have hlength := hg.given 0 nonce nonces hgen
    obtain ⟨header, hheader, rfl⟩ := newHeader_of_nonce hs hgen hlength
    obtain ⟨hbuilt, -⟩ := newHeader_eq_ok hheader
    rw [bind_of_ok hheader]
    cases ha : s.resolver.answer session.asked s.config.keyAlias with
    | none =>
      have hkey : s.aliasKey { session with nonces } = .error (.key (.notFound s.config.keyAlias))
          ⟨nonces, session.asked ++ [s.config.keyAlias]⟩ := by
        unfold aliasKey Session.asking
        rw [Resolver.key_of_unanswered ha]
      rw [bind_of_error hkey]
      exact .inr ⟨_, _, rfl, .unknown ha⟩
    | some key =>
      have hkey : s.aliasKey { session with nonces } =
          .ok key ⟨nonces, session.asked ++ [s.config.keyAlias]⟩ :=
        Session.asking_of_ok (s := { session with nonces }) (Resolver.key_of_answer ha)
      rw [bind_of_ok hkey]
      cases hk : s.keyedEngine .encrypt key header.nonce (header.encodeWith key) with
      | error f =>
        refine .inr ⟨f, _, rfl, ?_⟩
        obtain ⟨e', hkeyed⟩ := keyedEngine_eq_error hk
        rcases Engine.keyFor_eq_error hkeyed with ⟨rfl, hwrong⟩ | ⟨-, hwrong⟩
        · exact .keyLength ha hwrong
        · exact absurd (hlength.trans hs.engine.symm) hwrong
      | ok keyed =>
        exact .inl ⟨_, _, key, header.nonce, _, rfl, keyedEngine_eq_ok hk,
          hbuilt.length_encodeWith_le key⟩

/-- **A sealing that fails does so for a reason that is listed.** -/
theorem ofSealing_of_encrypt (hs : s.SetUp) (hg : session.nonces.Gives s.nonceLength) {f : Failure}
    {after : Session} (he : s.encrypt m session = .error f after) : f.OfSealing s session m := by
  rcases sealing_cases hs hg m with ⟨begun, session', key, nonce, header, hbegun, hkeyed, hheader⟩ |
    ⟨err, session', hfailed, herr⟩
  · rcases Engine.whole_of_sealing (m := m) hkeyed hheader with ⟨-, body, hwhole⟩ | ⟨hlong, hwhole⟩
    · obtain ⟨done, hdone⟩ := (encrypt_of_sealing hbegun).mpr ⟨body, hwhole, rfl⟩
      rw [hdone] at he
      simp at he
    · have hrun := Engine.transform_eq_whole (Engine.settled_keyFor hkeyed) m
      rw [hwhole] at hrun
      rw [encrypt_eq_sealing, bind_of_ok hbegun] at he
      simp only [Engine.run, hrun] at he
      obtain ⟨rfl, -⟩ := EStateM.Result.error.inj he
      exact .tooLong hlong
  · rw [encrypt_eq_sealing, bind_of_error hfailed] at he
    obtain ⟨rfl, -⟩ := EStateM.Result.error.inj he
    exact herr

/-- A sealing that succeeds has none of the listed reasons to fail. -/
theorem not_ofSealing_of_encrypt {c : Bytes} {after : Session}
    (he : s.encrypt m session = .ok c after) (f : Failure) : ¬f.OfSealing s session m := by
  obtain ⟨h, key, keyed, body, hbuilt, -, hanswer, hkeyed, hwhole, -⟩ := encrypt_eq_ok he
  rintro (hgen | hnone | ⟨hsome, hwrong⟩ | hlong)
  · rw [encrypt, bind_of_error (newHeader_of_error hgen)] at he
    simp at he
  · rw [hanswer] at hnone
    simp at hnone
  · rw [hanswer] at hsome
    obtain rfl := Option.some.inj hsome
    exact hwrong (Engine.exists_keyFor.mp ⟨keyed, hkeyed⟩).1
  · rcases Engine.whole_of_sealing (m := m) hkeyed (hbuilt.length_encodeWith_le key) with
      ⟨hfits, -⟩ | ⟨-, hrefused⟩
    · exact hlong hfits
    · rw [hwhole] at hrefused
      simp at hrefused

/-! ## 5. The source behind it -/

/-- What keeps a source keeps what it gives. -/
theorem gives_of_keeps {α : Type} {call : InSession α} (h : Keeps Session.nonces call) (n : Nat) :
    Along (fun s t => s.nonces.Gives n → t.nonces.Gives n) call := by
  intro session hg
  have hsame := h session
  simp only at hsame ⊢
  rwa [hsame]

theorem gives_nonce (n : Nat) :
    Along (fun s t => s.nonces.Gives n → t.nonces.Gives n) Session.nonce := by
  intro session hg
  have hgenerate := hg.generate
  cases hgen : NonceSource.generate session.nonces with
  | ok bytes nonces =>
    rw [hgen] at hgenerate
    rw [Session.nonce_of_ok hgen]
    exact hgenerate
  | error f nonces =>
    rw [hgen] at hgenerate
    rw [Session.nonce_of_error hgen]
    exact hgenerate

/-- **A sealing leaves a source that gives what it gave before**, whether it ends well or fails. -/
theorem gives_encrypt (s : Sealer) (m : Bytes) (n : Nat) :
    Along (fun s t => s.nonces.Gives n → t.nonces.Gives n) (s.encrypt m) := by
  unfold encrypt newHeader
  refine Along.bind (fun h₁ h₂ hg => h₂ (h₁ hg)) ?_ fun header => gives_of_keeps ?_ n
  · refine Along.bind (fun h₁ h₂ hg => h₂ (h₁ hg)) (gives_nonce n) fun nonce =>
      gives_of_keeps ?_ n
    cases s.config.policy <;> exact (Session.keeps_result _).bind fun _ => Keeps.pure _
  · refine (Session.keeps_asking _).bind fun key => ?_
    refine (Session.keeps_result _).bind fun engine => ?_
    exact (Session.keeps_result _).bind fun _ => Keeps.pure _

/-! ## 6. Every sealing -/

/-- **A call that ends well unless there is a cause**, fails only with one, and leaves a source that
gives nonces of `n` bytes. -/
structure EndsWell {σ α : Type} (Cause : Failure → Prop) (nonces : σ → NonceSource) (n : Nat)
    (result : EStateM.Result Failure σ α) : Prop where
  ok : (∃ a s, result = .ok a s) ↔ ∀ f, ¬Cause f
  error : ∀ f s, result = .error f s → Cause f
  gives : (nonces (leftBy result)).Gives n

/-- **Sealing a whole message ends well** in this sense, once the sealer is set up. -/
theorem endsWell_encrypt (hs : s.SetUp) (hg : session.nonces.Gives s.nonceLength) (m : Bytes) :
    EndsWell (Failure.OfSealing s session m) Session.nonces s.nonceLength
      (s.encrypt m session) := by
  refine ⟨⟨?_, fun hnone => ?_⟩, fun f after he => ofSealing_of_encrypt hs hg he,
    gives_encrypt s m _ session hg⟩
  · rintro ⟨c, after, he⟩
    exact not_ofSealing_of_encrypt he
  · cases he : s.encrypt m session with
    | ok c after => exact ⟨c, after, rfl⟩
    | error f after => exact absurd (ofSealing_of_encrypt hs hg he) (hnone f)

/-- A stream ends well where the whole message does. -/
theorem EndsWell.of_alike {Cause : Failure → Prop} {n : Nat} {before : Bytes}
    {whole : EStateM.Result Failure Session Bytes}
    {stream : EStateM.Result Failure StreamSession Summary}
    (h : EndsWell Cause Session.nonces n whole)
    (halike : Alike (StreamSession.Received before) StreamSession.FailedSame whole stream) :
    EndsWell Cause (fun t => t.nonces) n stream := by
  obtain ⟨hok, herror, hgives⟩ := h
  rcases halike.outcome with ⟨c, sum, session, t, rfl, rfl, -, rfl⟩ |
    ⟨f, f', session, t, rfl, rfl, rfl, rfl⟩
  · refine ⟨⟨fun _ => hok.mp ⟨c, _, rfl⟩, fun _ => ⟨sum, t, rfl⟩⟩, by simp, hgives⟩
  · have hcause := herror f' _ rfl
    refine ⟨⟨by simp, fun hnone => absurd hcause (hnone f')⟩, fun f s hf => ?_, hgives⟩
    obtain ⟨rfl, -⟩ := EStateM.Result.error.inj hf
    exact hcause

/-- **A sealer for which nothing has to be checked any more.** -/
structure Suffices (s : Sealer) (session : Session) (m : Bytes) : Prop where
  /-- Sealing the whole message ends well unless there is a cause that is listed. -/
  whole : EndsWell (Failure.OfSealing s session m) Session.nonces s.nonceLength
    (s.encrypt m session)
  /-- So does sealing a stream, with a reader and a writer that do not fail. -/
  stream : s.engine.suite ≠ .aes128Ccm → ∀ (reader : Reader) (writer : Writer),
    reader.Delivers m none → writer.Accepting →
      EndsWell (Failure.OfSealing s session m) (fun t => t.nonces) s.nonceLength
        (s.encryptStream { session with source := .ofReader reader, writer })
  /-- Nothing that is listed is about what was checked, unless it is a failure that a source of the
  owner's own hands out. -/
  excluded : ∀ f, Failure.OfSealing s session m f →
    f.isOfSetUp = false ∨
      session.nonces.isOwn = true ∧ ∃ after, NonceSource.generate session.nonces = .error f after

/-- **What is checked when a sealer is set up is enough for every sealing**: of every message, in
either layout, whole or as a stream, in every session whose source gives nonces of the length that
was announced. -/
theorem set_up_suffices {suite : Suite} {resolver : Resolver} {nonces : NonceSource}
    {config : Config} {s : Sealer} (hs : new suite.engine resolver nonces config = .ok s)
    {session : Session} (hg : session.nonces.Gives nonces.length) (m : Bytes) :
    s.Suffices session m := by
  have hsetup := setUp_of_new hs
  obtain ⟨hvalid, rfl⟩ := new_eq_ok hs
  obtain ⟨-, -, -, hchunk, -⟩ := Config.validate_eq_ok hvalid
  have hwhole := endsWell_encrypt hsetup hg m
  refine ⟨hwhole, fun hsuite reader writer hr hw => ?_, fun f hf => hf.not_ofSetUp⟩
  have hstreams := Engine.streams_eq_true.mpr hsuite
  exact hwhole.of_alike (alike_encrypt
    (t := { session with source := .ofReader reader, writer }) hstreams hchunk hr rfl hw)

/-- Three bytes under a name of one letter: there is a nonce, the key for the name has the right
length and the message is not too long, so they are sealed. -/
theorem set_up_suffices_three_bytes :
    ∃ s c after,
      new (Suite.engine .aes128Gcm) (.fixed ⟨Bytes.zeros 16⟩) (.random 12 [])
        { keyAlias := "k", policy := .authenticated } = .ok s ∧
      s.encrypt [1, 2, 3] ⟨.random 12 [], []⟩ = .ok c after := by
  obtain ⟨s, hs⟩ : ∃ s, new (Suite.engine .aes128Gcm) (.fixed ⟨Bytes.zeros 16⟩) (.random 12 [])
      { keyAlias := "k", policy := .authenticated } = .ok s := ⟨_, rfl⟩
  obtain ⟨session, hsession⟩ : ∃ session : Session, session = ⟨.random 12 [], []⟩ := ⟨_, rfl⟩
  have hdraws : (NonceSource.random 12 []).isOwn = false := rfl
  have hg : session.nonces.Gives 12 := by
    rw [hsession]
    exact NonceSource.gives_of_isOwn_eq_false hdraws
  have h : s.Suffices session [1, 2, 3] := set_up_suffices hs hg [1, 2, 3]
  rw [hsession] at h
  obtain ⟨-, rfl⟩ := new_eq_ok hs
  obtain ⟨c, after, hc⟩ := h.whole.ok.mpr (by
    rintro f (hgen | hnone | ⟨hsome, hwrong⟩ | hlong)
    · simp [NonceSource.generate, NonceSource.answering_eq_error, NonceSource.drawn] at hgen
    · simp [Resolver.fixed, Resolver.ofFunction] at hnone
    · obtain rfl := Option.some.inj hsome
      exact hwrong rfl
    · exact hlong fun bound hbound => by
        obtain rfl := Option.some.inj hbound
        decide)
  exact ⟨_, c, after, hs, hc⟩

end Sealer

end Envelope

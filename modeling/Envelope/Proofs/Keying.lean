/-
# What an opening is keyed with

Before an opening touches the body it keys its engine: with the key found for the header, the nonce
in the header, and the header itself as associated data.  The two ways to open take the last of
these from different places.  A whole message is opened with the header as it stands in the
ciphertext.  A stream is opened with the header written again, under the key that was found for it;
and this key is an answer to a second question, the first having been asked while the header was
read, to check its tag.

With a resolver that answers both questions alike there is no difference.  With one that does not,
because a key was exchanged between the two, the header of a stream is written with another tag than
it was read with, and the associated data is not what was consumed.  This module says how the two
ways compare for *every* resolver (`streamKeying_compares`): what fails on one fails on the other,
the key and the nonce are the same, and the associated data is the same if and only if the header is
a plain one or its tag comes out the same under both answers.  `streamKeying_of_two_answers` is a
ciphertext and a resolver for which it is not.
-/
import Envelope.Proofs.Sealer

namespace Envelope

/-- What an engine is keyed with: a key, a nonce, and a header as associated data. -/
structure Keying where
  key : Key
  nonce : Bytes
  header : Bytes
  deriving DecidableEq

/-! ## 1. Openings, up to the engine and from it on -/

namespace Sealer

variable (s : Sealer)

/-- What opening a whole message keys its engine with, and the body that is left to it. -/
def keying (ciphertext : Bytes) : InSession (Keying × Bytes) := do
  let (h, n) ← Session.asking (Header.ofBytes s.resolver ciphertext)
  let key ← Session.asking (s.keyFor h)
  return (⟨key, h.nonce, ciphertext.take n⟩, ciphertext.drop n)

/-- What opening a stream keys its engine with. -/
def streamKeying : InStream Keying := do
  let h ← StreamSession.scanning (Header.decode s.resolver)
  let key ← StreamSession.inSession (Session.asking (s.keyFor h))
  return ⟨key, h.nonce, h.encodeWith key⟩

/-- The body opened by an engine that is keyed with `k`. -/
def openBody (k : Keying) (body : Bytes) : InSession Bytes := do
  let engine ← Session.result (s.keyedEngine .decrypt k.key k.nonce k.header)
  let (plain, _) ← Session.result (engine.run (Engine.transform body))
  return plain

/-- The rest of a stream opened by an engine that is keyed with `k`. -/
def openRest (k : Keying) : InStream Summary := do
  let engine ← StreamSession.inSession
    (Session.result (s.keyedEngine .decrypt k.key k.nonce k.header))
  return (← StreamSession.transferring engine stagesBefore
    (Transfer.inward k.header s.config.chunkSize)).1

/-- **Opening is keying and then the body.** -/
theorem decrypt_eq_keying (c : Bytes) :
    s.decrypt c = s.keying c >>= fun found => s.openBody found.1 found.2 := by
  unfold decrypt keying openBody
  rw [bind_assoc]
  refine bind_congr fun found => ?_
  obtain ⟨h, n⟩ := found
  simp only [bind_assoc, pure_bind]

/-- Opening a stream is a check, keying, and then the rest of the stream. -/
theorem decryptStream_eq_keying :
    s.decryptStream = StreamSession.inSession (Session.result s.checkStreams) >>= fun _ =>
      s.streamKeying >>= s.openRest := by
  unfold decryptStream streamKeying
  refine bind_congr fun _ => ?_
  rw [bind_assoc]
  refine bind_congr fun h => ?_
  rw [bind_assoc]
  refine bind_congr fun key => ?_
  rw [pure_bind]
  rfl

end Sealer

/-! ## 2. The two questions -/

/-- The names that reading a header asks for. -/
def Header.questions : Header → List String
  | .plain _ => []
  | .authenticated a => [a.keyName]

/-- Reading a header asks for the name in it, if it has a tag to be checked. -/
theorem Header.asked_of_ofBytes {r : Resolver} {b : Bytes} {asked asked' : List String} {h : Header}
    {n : Nat} (hd : ofBytes r b asked = .ok (h, n) asked') : asked' = asked ++ h.questions := by
  obtain ⟨-, hbuilt, hw⟩ := ofBytes_eq_ok hd
  have hsplit : b = b.take n ++ b.drop n := (List.take_append_drop n b).symm
  cases h with
  | plain h =>
    have hform : h.encode = b.take n := hw
    rw [hsplit, ← hform, ofBytes_plain hbuilt] at hd
    obtain ⟨-, rfl⟩ := EStateM.Result.ok.inj hd
    exact (List.append_nil _).symm
  | authenticated a =>
    obtain ⟨key, hkey, hform, -⟩ := hw
    rw [hsplit, ← hform, ofBytes_authenticated hbuilt hkey] at hd
    obtain ⟨-, rfl⟩ := EStateM.Result.ok.inj hd
    rfl

/-- Under two keys a header is the same bytes when its tag is. -/
theorem AuthenticatedHeader.encodeWith_inj {a : AuthenticatedHeader} {key key' : Key} :
    a.encodeWith key = a.encodeWith key' ↔
      Hmac.code key.bytes a.covered = Hmac.code key'.bytes a.covered := by
  rw [encodeWith, encodeWith, List.append_cancel_left_eq]

/-! ## 3. The comparison -/

/-- **How a stream is keyed where the whole message is keyed with `k`**, when the resolver was asked
for the names `asked` before.  `k'` is the keying of the stream. -/
structure Compares (r : Resolver) (asked : List String) (k k' : Keying) : Prop where
  key : k'.key = k.key
  nonce : k'.nonce = k.nonce
  /-- A plain header is the same.  An authenticated one was read under the answer to the first
  question, and is written again under the answer to the second. -/
  header : k'.header = k.header ∨
    ∃ a first, Header.Built (.authenticated a) ∧ r.answer asked a.keyName = some first ∧
      r.answer (asked ++ [a.keyName]) a.keyName = some k.key ∧
      k.header = a.encodeWith first ∧ k'.header = a.encodeWith k.key ∧
      (k'.header = k.header ↔
        Hmac.code k.key.bytes a.covered = Hmac.code first.bytes a.covered)

/-- **With a resolver that gives the same answer twice, nothing differs.** -/
theorem Compares.eq_of_steady {r : Resolver} {asked : List String} {k k' : Keying}
    (h : Compares r asked k k')
    (hsteady : ∀ name, r.answer (asked ++ [name]) name = r.answer asked name) : k' = k := by
  obtain ⟨key, nonce, header⟩ := k
  obtain ⟨key', nonce', header'⟩ := k'
  obtain rfl : key' = key := h.key
  obtain rfl : nonce' = nonce := h.nonce
  have hheader : header' = header := by
    rcases h.header with hsame | ⟨a, first, -, hfirst, hsecond, -, -, hiff⟩
    · exact hsame
    · rw [hsteady, hfirst] at hsecond
      obtain rfl := Option.some.inj hsecond
      exact hiff.mpr rfl
  rw [hheader]

namespace Sealer

variable {s : Sealer}

variable {c : Bytes} {h : Header} {n : Nat} {key : Key} {asked asked' : List String}

/-- A whole message is keyed once its header is read and a key is found for it. -/
theorem keying_of_ofBytes {session : Session}
    (hread : Header.ofBytes s.resolver c session.asked = .ok (h, n) asked)
    (hkey : s.keyFor h asked = .ok key asked') :
    s.keying c session =
      .ok (⟨key, h.nonce, c.take n⟩, c.drop n) { session with asked := asked' } := by
  have hask : Session.asking (s.keyFor h) { session with asked } =
      .ok key { session with asked := asked' } :=
    Session.asking_of_ok hkey
  unfold keying
  rw [bind_of_ok (Session.asking_of_ok hread)]
  simp only
  rw [bind_of_ok hask]
  rfl

/-- The keyings of a header that was read compare. -/
theorem compares_of_ofBytes (hread : Header.ofBytes s.resolver c asked = .ok (h, n) asked')
    {done : List String} (hkey : s.keyFor h asked' = .ok key done) :
    Compares s.resolver asked ⟨key, h.nonce, c.take n⟩ ⟨key, h.nonce, h.encodeWith key⟩ := by
  refine ⟨rfl, rfl, ?_⟩
  obtain ⟨-, hbuilt, hspells⟩ := Header.ofBytes_eq_ok hread
  have hasked := Header.asked_of_ofBytes hread
  cases h with
  | plain h => exact Or.inl hspells
  | authenticated a =>
    obtain ⟨first, hfirst, hform, -⟩ := hspells
    obtain ⟨name, hname, -, hsecond⟩ := keyFor_eq_ok hkey
    obtain rfl : a.keyName = name := Option.some.inj hname
    rw [hasked] at hsecond
    refine Or.inr ⟨a, first, hbuilt, hfirst, hsecond, hform.symm, rfl, ?_⟩
    show a.encodeWith key = c.take n ↔ _
    rw [← hform]
    exact AuthenticatedHeader.encodeWith_inj

/-- **The two ways to open, compared up to the engine**: the same header and the same key, and the
header as it was read or written again. -/
theorem alike_keying {failure : Option TransportError} {reader : Reader}
    (hr : reader.Delivers c failure) {t : StreamSession} (ht : t.source = .ofReader reader) :
    Alike
      (fun found k' session t' => ∃ h n key asked,
        Header.ofBytes s.resolver c t.asked = .ok (h, n) asked ∧
        s.keyFor h asked = .ok key session.asked ∧
        found = (⟨key, h.nonce, c.take n⟩, c.drop n) ∧ k' = ⟨key, h.nonce, h.encodeWith key⟩ ∧
        t'.toSession = session ∧ t'.source.consumed = n ∧ t'.source.Delivers (c.drop n) failure)
      (fun e e' session t' => e' = e.atEnd failure ∧ t'.toSession = session)
      (s.keying c t.toSession) (s.streamKeying t) := by
  unfold keying streamKeying
  refine (StreamSession.alike_header s.resolver hr ht).bind ?_
  rintro ⟨_, n⟩ h session _ ⟨rfl, hheader, source, rfl, hconsumed, hd⟩
  obtain ⟨asked, hread, rfl⟩ := Session.asking_eq_ok hheader
  simp only
  cases hkey : s.keyFor h asked with
  | error e asked' =>
    -- a key that is missing is no matter of where the bytes come from
    obtain ⟨problem, rfl, -⟩ := keyFor_eq_error hkey
    have hask : Session.asking (s.keyFor h) { t.toSession with asked } =
        .error (.key problem) { t.toSession with asked := asked' } := by
      unfold Session.asking
      rw [hkey]
    rw [bind_of_error hask, bind_of_error (StreamSession.inSession_of_error hask)]
    exact ⟨rfl, rfl⟩
  | ok key asked' =>
    have hask : Session.asking (s.keyFor h) { t.toSession with asked } =
        .ok key { t.toSession with asked := asked' } :=
      Session.asking_of_ok hkey
    rw [bind_of_ok hask, bind_of_ok (StreamSession.inSession_of_ok hask)]
    exact ⟨h, n, key, asked, hread, hkey, rfl, rfl, rfl, hconsumed, hd⟩

/-- **A ciphertext with an authenticated header, and the answers to both questions**: the key is the
second, and the stream's header is the one that the second key makes. -/
theorem keyings_of_answers {a : AuthenticatedHeader} (hb : Header.Built (.authenticated a))
    {first second : Key} {body : Bytes} {failure : Option TransportError} {reader : Reader}
    (hr : reader.Delivers (a.encodeWith first ++ body) failure) {t : StreamSession}
    (ht : t.source = .ofReader reader) (hfirst : s.resolver.answer t.asked a.keyName = some first)
    (hsecond : s.resolver.answer (t.asked ++ [a.keyName]) a.keyName = some second) :
    (∃ done, s.keying (a.encodeWith first ++ body) t.toSession =
      .ok (⟨second, a.nonce, a.encodeWith first⟩, body) done) ∧
      ∃ t', s.streamKeying t = .ok ⟨second, a.nonce, a.encodeWith second⟩ t' ∧
        t'.source.consumed = a.length := by
  have hread := Header.ofBytes_authenticated hb hfirst body
  have hkey := keyFor_of_answer (h := .authenticated { a with resolver := some s.resolver }) rfl
    hb.bounded.2.1 hsecond
  have hlength := a.length_encodeWith first
  have hk : s.keying (a.encodeWith first ++ body) t.toSession = _ := keying_of_ofBytes hread hkey
  rw [List.take_left' hlength, List.drop_left' hlength] at hk
  refine ⟨⟨_, hk⟩, ?_⟩
  have halike := alike_keying (s := s) hr ht
  rw [hk] at halike
  obtain ⟨k', t', hk', h, n, key, asked, hread', hkey', -, rfl, -, hconsumed, -⟩ := halike.of_ok
  rw [hread] at hread'
  obtain ⟨⟨⟩, rfl⟩ := EStateM.Result.ok.inj hread'
  rw [hkey] at hkey'
  obtain ⟨rfl, -⟩ := EStateM.Result.ok.inj hkey'
  exact ⟨t', hk', hconsumed⟩

/-- **What the two ways to open a ciphertext are keyed with, for every resolver.**  The reader
delivers the ciphertext in any fragmentation, and ends behind it or fails there.

* Both ways key their engine with what `keying` and `streamKeying` say, and go on from there.
* If one comes to a keying, so does the other.  The same names were asked for, the header of the
  whole message is what the stream has consumed, the body is what it still delivers, and the keyings
  are the same but for the header, as `Compares` says; entirely the same if the resolver gives every
  answer twice.
* If one fails, so does the other, with the same failure up to how the reader ends. -/
theorem streamKeying_compares (s : Sealer) {c : Bytes} {failure : Option TransportError}
    {reader : Reader} (hr : reader.Delivers c failure) (session : Session) (writer : Writer) :
    s.decrypt c = (s.keying c >>= fun found => s.openBody found.1 found.2) ∧
      s.decryptStream = (StreamSession.inSession (Session.result s.checkStreams) >>= fun _ =>
        s.streamKeying >>= s.openRest) ∧
      (∀ k body session', s.keying c session = .ok (k, body) session' →
        ∃ k' t', s.streamKeying { session with source := .ofReader reader, writer } = .ok k' t' ∧
          t'.toSession = session' ∧ t'.source.Delivers body failure ∧
          k.header ++ body = c ∧ t'.source.consumed = k.header.length ∧
          Compares s.resolver session.asked k k' ∧
          ((∀ name, s.resolver.answer (session.asked ++ [name]) name =
            s.resolver.answer session.asked name) → k' = k)) ∧
      ∀ e session', s.keying c session = .error e session' →
        ∃ t', s.streamKeying { session with source := .ofReader reader, writer } =
            .error (e.atEnd failure) t' ∧ t'.toSession = session' := by
  have halike := alike_keying (s := s) hr (t := { session with source := .ofReader reader, writer })
    rfl
  refine ⟨s.decrypt_eq_keying c, s.decryptStream_eq_keying, ?_, ?_⟩
  · intro k body session' hk
    rw [hk] at halike
    obtain ⟨k', t', hk', h, n, key, asked, hread, hkey, hfound, rfl, hsession, hconsumed, hd⟩ :=
      halike.of_ok
    obtain ⟨rfl, rfl⟩ := Prod.mk.inj hfound
    have hcompares := compares_of_ofBytes hread hkey
    obtain ⟨hn, -, -⟩ := Header.ofBytes_eq_ok hread
    have hlength : (c.take n).length = n := by
      rw [List.length_take]
      omega
    exact ⟨_, t', hk', hsession, hd, List.take_append_drop n c, hconsumed.trans hlength.symm,
      hcompares, hcompares.eq_of_steady⟩
  · intro e session' hk
    rw [hk] at halike
    obtain ⟨_, t', hk', rfl, hsession⟩ := halike.of_error
    exact ⟨t', hk', hsession⟩

/-- A header under a key that does not change, and three bytes of a body, from a reader that hands
out three bytes at a time: the associated data is what was consumed. -/
theorem streamKeying_compares_steady_key :
    ∃ reader t', Reader.Delivers reader
        (AuthenticatedHeader.encodeWith ⟨Bytes.zeros 12, "k", none⟩ ⟨Bytes.zeros 16⟩ ++ [1, 2, 3])
        none ∧
      streamKeying ⟨{ keyAlias := "k" }, .fixed ⟨Bytes.zeros 16⟩, Suite.engine .aes128Gcm, 12⟩
          { nonces := .random 12 [], asked := [], writer := .paced { sizes := [1] } none
            source := .ofReader reader } =
        .ok ⟨⟨Bytes.zeros 16⟩, Bytes.zeros 12,
          AuthenticatedHeader.encodeWith ⟨Bytes.zeros 12, "k", none⟩ ⟨Bytes.zeros 16⟩⟩ t' ∧
      t'.source.consumed = 51 := by
  obtain ⟨s, hs⟩ : ∃ s : Sealer, s =
      ⟨{ keyAlias := "k" }, .fixed ⟨Bytes.zeros 16⟩, Suite.engine .aes128Gcm, 12⟩ := ⟨_, rfl⟩
  have hb : Header.Built (.authenticated ⟨Bytes.zeros 12, "k", none⟩) :=
    AuthenticatedHeader.new_eq_ok.mpr ⟨rfl, rfl, by decide⟩
  have hsteady : ∀ asked name, s.resolver.answer asked name = some ⟨Bytes.zeros 16⟩ := by
    intro asked name
    rw [hs]
    rfl
  have hr := Reader.delivers_paced
    (AuthenticatedHeader.encodeWith ⟨Bytes.zeros 12, "k", none⟩ ⟨Bytes.zeros 16⟩ ++ [1, 2, 3]) []
    (by decide : ∀ n ∈ [3], 0 < n)
  obtain ⟨⟨done, hk⟩, -⟩ := keyings_of_answers (s := s) hb hr
    (t := { nonces := .random 12 [], asked := [], writer := .paced { sizes := [1] } none
            source := .ofReader _ }) rfl (hsteady _ _) (hsteady _ _)
  obtain ⟨-, -, hkeyed, -⟩ := streamKeying_compares s hr ⟨.random 12 [], []⟩
    (.paced { sizes := [1] } none)
  obtain ⟨k', t', hk', -, -, -, hconsumed, -, hsame⟩ := hkeyed _ _ _ hk
  obtain rfl := hsame fun name => (hsteady _ name).trans (hsteady _ name).symm
  rw [hs] at hk'
  exact ⟨_, t', hr, hk', hconsumed⟩

/-- A key that is exchanged between the two questions: the header is read with the tag of the first
key, and what the engine is keyed with has the tag of the second. -/
theorem streamKeying_of_two_answers :
    ¬ ∀ (s : Sealer) (c : Bytes) (reader : Reader) (t : StreamSession), reader.Delivers c none →
      t.source = .ofReader reader → ∀ k t', s.streamKeying t = .ok k t' →
        (∃ engine, s.keyedEngine .decrypt k.key k.nonce k.header = .ok engine) →
          k.header = c.take t'.source.consumed := by
  intro hall
  obtain ⟨first, hfirst⟩ : ∃ key : Key, key = ⟨List.replicate 16 1⟩ := ⟨_, rfl⟩
  obtain ⟨second, hsecond⟩ : ∃ key : Key, key = ⟨List.replicate 16 2⟩ := ⟨_, rfl⟩
  obtain ⟨s, hs⟩ : ∃ s : Sealer, s = ⟨{ keyAlias := "k" }, .inTurn [some first, some second],
      Suite.engine .aes128Gcm, 12⟩ := ⟨_, rfl⟩
  obtain ⟨a, ha⟩ : ∃ a : AuthenticatedHeader, a = ⟨Bytes.zeros 12, "k", none⟩ := ⟨_, rfl⟩
  have hb : Header.Built (.authenticated a) := by
    rw [ha]
    exact AuthenticatedHeader.new_eq_ok.mpr ⟨rfl, rfl, by decide⟩
  obtain ⟨reader, hr⟩ : ∃ reader, Reader.Delivers reader (a.encodeWith first ++ []) none :=
    ⟨_, Reader.delivers_paced _ [] (by decide : ∀ n ∈ [3], 0 < n)⟩
  obtain ⟨t, ht⟩ : ∃ t : StreamSession, t =
      { nonces := .random 12 [], asked := [], writer := .paced { sizes := [1] } none
        source := .ofReader reader } := ⟨_, rfl⟩
  have hanswer : s.resolver.answer t.asked a.keyName = some first := by rw [hs, ht]; rfl
  have hanswer' : s.resolver.answer (t.asked ++ [a.keyName]) a.keyName = some second := by
    rw [hs, ht]
    rfl
  obtain ⟨-, t', hk, hconsumed⟩ := keyings_of_answers hb hr (t := t) (by rw [ht]) hanswer hanswer'
  have hkeyed : ∃ engine, s.keyedEngine .decrypt second a.nonce (a.encodeWith second) =
      .ok engine := by
    rw [hs, hsecond, ha]
    exact ⟨_, rfl⟩
  have hsame := hall s _ _ t hr (by rw [ht]) _ t' hk hkeyed
  rw [hconsumed, List.take_left' (a.length_encodeWith first),
    AuthenticatedHeader.encodeWith_inj, hfirst, hsecond, ha] at hsame
  exact absurd hsame (by decide +kernel)

end Sealer

end Envelope

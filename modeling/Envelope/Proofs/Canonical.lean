/-
# Only canonical ciphertexts are opened

Whoever changes a ciphertext without knowing the key should not be able to make another one that
opens to the same message: nothing in it may be ignored, padded differently or written in two ways.
This is the reverse of the round trip, and it is about bytes that nobody has sealed.  What opens to
a message is a header, in the one form it has, and behind it the one body that sealing gives for
this header, this key and this message (`Sealer.decrypt_canonical`).

It is put together from two results that say the same of the two parts: a header that is read is
written again as it was read (`encodeWith_of_ofBytes`), and what an engine opens is what it seals
(`Engine.whole_back`).  That the two parts meet at one place only is the prefix code of the headers
(`agrees_of_prefix`).
-/
import Envelope.Proofs.Engine.Canonical
import Envelope.Proofs.Header.PrefixFree
import Envelope.Proofs.RoundTrip
import Envelope.Suite

namespace Envelope

/-- **The body of a message**: an engine of the suite is keyed for sealing and given the whole. -/
def Suite.sealBody (suite : Suite) (key : Key) (nonce header plain : Bytes) :
    Except Failure Bytes := do
  let (_, engine) ← suite.engine.run (Engine.keyFor .encrypt key nonce header)
  let (body, _) ← engine.run (Engine.transform plain)
  return body

/-- A body is what the keyed engine makes of the message. -/
theorem Suite.sealBody_eq_ok {suite : Suite} {key : Key} {nonce header plain body : Bytes} :
    suite.sealBody key nonce header plain = .ok body ↔
      ∃ keyed, Engine.keyFor .encrypt key nonce header suite.engine = .ok () keyed ∧
        keyed.whole plain = .ok body := by
  unfold sealBody Engine.run
  cases hk : Engine.keyFor .encrypt key nonce header suite.engine with
  | error e keyed => simp [bind, Except.bind]
  | ok _ keyed =>
    have htransform := Engine.transform_eq_whole (Engine.settled_keyFor hk) plain
    cases hw : keyed.whole plain with
    | error e =>
      rw [hw] at htransform
      simp [bind, Except.bind, htransform, hw]
    | ok out =>
      rw [hw] at htransform
      simp [bind, Except.bind, htransform, hw, pure, Except.pure]

namespace Sealer

variable {suite : Suite} {f : String → Option Key} {config : Config} {nonceLength : Nat}

/-- **What is opened is a header and its body.** -/
theorem exists_of_decrypt {c plain : Bytes} {session done : Session}
    (hd : decrypt ⟨config, .ofFunction f, suite.engine, nonceLength⟩ c session = .ok plain done) :
    ∃ (h : Header) (name : String) (key : Key) (body : Bytes),
      h.Built ∧ h.keyName = some name ∧ name ≠ "" ∧ f name = some key ∧
      suite.sealBody key h.nonce (h.encodeWith key) plain = .ok body ∧
      c = h.encodeWith key ++ body := by
  obtain ⟨h, n, key, engine, asked, asked', hread, hkey, hengine, hwhole, -⟩ := decrypt_eq_ok.mp hd
  obtain ⟨name, hname, hne, hanswer⟩ := keyFor_eq_ok hkey
  obtain ⟨-, hbuilt, -⟩ := Header.ofBytes_eq_ok hread
  have hform : h.encodeWith key = c.take n := encodeWith_of_keyFor rfl hread hkey
  obtain ⟨keyed, hkeyed, hbody⟩ := Engine.whole_back hengine hwhole
  refine ⟨h, name, key, c.drop n, hbuilt, hname, hne, hanswer, ?_, ?_⟩
  · rw [hform]
    exact Suite.sealBody_eq_ok.mpr ⟨keyed, hkeyed, hbody⟩
  · rw [hform, List.take_append_drop]

/-- **A header and its body are opened.** -/
theorem decrypt_sealBody {h : Header} {name : String} {key : Key} {plain body : Bytes}
    (hb : h.Built) (hname : h.keyName = some name) (hne : name ≠ "") (hf : f name = some key)
    (hs : suite.sealBody key h.nonce (h.encodeWith key) plain = .ok body) (session : Session) :
    ∃ done, decrypt ⟨config, .ofFunction f, suite.engine, nonceLength⟩
      (h.encodeWith key ++ body) session = .ok plain done := by
  obtain ⟨keyed, hkeyed, hbody⟩ := Suite.sealBody_eq_ok.mp hs
  obtain ⟨keyed', hkeyed', hback⟩ := Engine.whole_whole rfl hkeyed hbody
  exact decrypt_append rfl hb hname hne hf hkeyed' hback

/-- **Opening accepts canonical ciphertexts, and nothing else**, for every suite and every resolver
that is a function of the name.  Some bytes are opened to `plain` if and only if they are a header
with a key name that is not empty, encoded under the key for this name, and behind it the body that
the suite makes of `plain` under this key, with the header's nonce and its bytes as associated data.
So for a header, a key and a message there is only one ciphertext that is opened. -/
theorem decrypt_canonical (suite : Suite) (f : String → Option Key) (config : Config)
    (nonceLength : Nat) (plain : Bytes) :
    (∀ c session,
      (∃ done, decrypt ⟨config, .ofFunction f, suite.engine, nonceLength⟩ c session =
          .ok plain done) ↔
        ∃ (h : Header) (name : String) (key : Key) (body : Bytes),
          h.Built ∧ h.keyName = some name ∧ name ≠ "" ∧ f name = some key ∧
          suite.sealBody key h.nonce (h.encodeWith key) plain = .ok body ∧
          c = h.encodeWith key ++ body) ∧
    ∀ (h : Header) (key : Key) (c c' : Bytes) (session session' done done' : Session), h.Built →
      decrypt ⟨config, .ofFunction f, suite.engine, nonceLength⟩ c session = .ok plain done →
      decrypt ⟨config, .ofFunction f, suite.engine, nonceLength⟩ c' session' = .ok plain done' →
      h.encodeWith key <+: c → h.encodeWith key <+: c' → c' = c := by
  constructor
  · intro c session
    constructor
    · rintro ⟨done, hd⟩
      exact exists_of_decrypt hd
    · rintro ⟨h, name, key, body, hb, hname, hne, hf, hs, rfl⟩
      exact decrypt_sealBody hb hname hne hf hs session
  · intro h key c c' session session' done done' hb hd hd' hc hc'
    obtain ⟨h₁, name₁, key₁, body₁, hb₁, hname₁, -, hf₁, hs₁, rfl⟩ := exists_of_decrypt hd
    obtain ⟨h₂, name₂, key₂, body₂, hb₂, hname₂, -, hf₂, hs₂, rfl⟩ := exists_of_decrypt hd'
    obtain ⟨hform₁, hsame₁⟩ := Header.agrees_of_prefix hb hb₁ hc (List.prefix_append _ _)
    obtain ⟨hform₂, hsame₂⟩ := Header.agrees_of_prefix hb hb₂ hc' (List.prefix_append _ _)
    -- the header decides the name, the name the key, and all three the body
    obtain rfl : name₁ = name₂ := by
      have hname := hsame₁.keyName.trans hsame₂.keyName.symm
      rw [hname₁, hname₂] at hname
      exact Option.some.inj hname
    obtain rfl : key₁ = key₂ := Option.some.inj (hf₁.symm.trans hf₂)
    rw [hform₁, hsame₁.nonce] at hs₁
    rw [hform₂, hsame₂.nonce] at hs₂
    obtain rfl : body₁ = body₂ := Except.ok.inj (hs₁.symm.trans hs₂)
    rw [hform₁, hform₂]

/-- Three bytes behind a plain header: the ciphertext is opened, and is the only one with this
header that is opened to them. -/
theorem decrypt_canonical_three_bytes :
    ∃ c, (∃ done, decrypt ⟨{ keyAlias := "other" }, .ofFunction fun _ => some ⟨Bytes.zeros 16⟩,
        Suite.engine .aes128CbcPkcs7, 16⟩ c ⟨.random 16 [], []⟩ = .ok [1, 2, 3] done) ∧
      ∀ c' done', decrypt ⟨{ keyAlias := "other" }, .ofFunction fun _ => some ⟨Bytes.zeros 16⟩,
          Suite.engine .aes128CbcPkcs7, 16⟩ c' ⟨.random 16 [], []⟩ = .ok [1, 2, 3] done' →
        PlainHeader.encode ⟨Bytes.zeros 16, some "k"⟩ <+: c' → c' = c := by
  obtain ⟨h, hh⟩ : ∃ h : Header, h = .plain ⟨Bytes.zeros 16, some "k"⟩ := ⟨_, rfl⟩
  have hb : h.Built := by
    rw [hh]
    exact PlainHeader.new_eq_ok.mpr ⟨rfl, by decide, by rintro _ ⟨rfl⟩; decide⟩
  have hform : h.encodeWith ⟨Bytes.zeros 16⟩ = PlainHeader.encode ⟨Bytes.zeros 16, some "k"⟩ := by
    rw [hh]
    rfl
  obtain ⟨body, hs⟩ : ∃ body, Suite.sealBody .aes128CbcPkcs7 ⟨Bytes.zeros 16⟩ h.nonce
      (h.encodeWith ⟨Bytes.zeros 16⟩) [1, 2, 3] = .ok body := by
    rw [hh]
    exact ⟨_, rfl⟩
  obtain ⟨hopen, hunique⟩ := decrypt_canonical .aes128CbcPkcs7 (fun _ => some ⟨Bytes.zeros 16⟩)
    { keyAlias := "other" } 16 [1, 2, 3]
  obtain ⟨done, hd⟩ := (hopen (h.encodeWith ⟨Bytes.zeros 16⟩ ++ body) ⟨.random 16 [], []⟩).mpr
    ⟨h, "k", ⟨Bytes.zeros 16⟩, body, hb, by rw [hh]; rfl, by decide, rfl, hs, rfl⟩
  refine ⟨h.encodeWith ⟨Bytes.zeros 16⟩ ++ body, ⟨done, hd⟩, ?_⟩
  intro c' done' hd' hc'
  rw [← hform] at hc'
  exact hunique h ⟨Bytes.zeros 16⟩ _ c' _ _ done done' hb hd hd' (List.prefix_append _ _) hc'

end Sealer

end Envelope

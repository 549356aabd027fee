/-
# Sealing and opening streams

A sealer does with a stream what it does with a whole message, in the same order: the header, the
key, the engine, the body.  So the two are compared step by step, and after each step the session is
the same on both sides and the stream has only lost what was read of it.  Two steps are not the same
on both sides and need a result from elsewhere: the header is read from different sources
(`alike_ofBytes`), and the associated data of a stream is the header written again
(`encodeWith_of_ofBytes`).  The body is the result about transfers (`alike_inward`,
`alike_outward`).

Failures are compared as well: whatever the whole message fails with, the stream fails with the
same.
-/
import Envelope.Proofs.Header
import Envelope.Proofs.Transfer
import Envelope.Sealer

namespace Envelope

/-! ## 1. Steps within a session -/

/-- Questions that end well leave the names that were asked. -/
theorem Session.asking_eq_ok {α : Type} {call : Asking α} {a : α} {session session' : Session}
    (h : Session.asking call session = .ok a session') :
    ∃ asked, call session.asked = .ok a asked ∧ session' = { session with asked } := by
  unfold asking at h
  cases hc : call session.asked with
  | error e asked => rw [hc] at h; simp at h
  | ok b asked =>
    rw [hc] at h
    obtain ⟨rfl, rfl⟩ := EStateM.Result.ok.inj h
    exact ⟨asked, rfl, rfl⟩

/-- Questions that are answered are answered within a session. -/
theorem Session.asking_of_ok {α : Type} {call : Asking α} {a : α} {s : Session}
    {asked : List String} (h : call s.asked = .ok a asked) :
    Session.asking call s = .ok a { s with asked } := by
  unfold asking
  rw [h]

/-- The next nonce is the source's. -/
theorem Session.nonce_of_ok {s : Session} {bytes : Bytes} {nonces : NonceSource}
    (h : NonceSource.generate s.nonces = .ok bytes nonces) :
    Session.nonce s = .ok bytes { s with nonces } := by
  unfold nonce
  rw [h]

/-- So is the failure, if there is none. -/
theorem Session.nonce_of_error {s : Session} {f : Failure} {nonces : NonceSource}
    (h : NonceSource.generate s.nonces = .error f nonces) :
    Session.nonce s = .error f { s with nonces } := by
  unfold nonce
  rw [h]

/-- A result that is there changes nothing. -/
theorem Session.result_eq_ok {α : Type} {x : Except Failure α} {a : α} {session session' : Session}
    (h : Session.result x session = .ok a session') : x = .ok a ∧ session' = session := by
  cases x with
  | error e => simp [Session.result] at h
  | ok b =>
    obtain ⟨rfl, rfl⟩ := EStateM.Result.ok.inj h
    exact ⟨rfl, rfl⟩

namespace StreamSession

/-- **A stream that came to what the whole message comes to**: the writer has received it behind
what it had before, and the session is the same. -/
def Received (before out : Bytes) (_ : Summary) (s : Session) (t : StreamSession) : Prop :=
  t.writer.received = before ++ out ∧ t.toSession = s

/-- A stream that failed as the whole message does, with the same session. -/
def FailedSame (e e' : Failure) (s : Session) (t : StreamSession) : Prop :=
  e' = e ∧ t.toSession = s

variable {α : Type} {t : StreamSession}

/-- A step that does not touch the stream is the same step. -/
theorem alike_inSession (call : InSession α) :
    Alike
      (fun a b s' t' => b = a ∧ call t.toSession = .ok a s' ∧ t' = { t with toSession := s' })
      FailedSame (call t.toSession) (inSession call t) := by
  unfold inSession
  cases h : call t.toSession with
  | ok a s => exact ⟨rfl, rfl, rfl⟩
  | error e s => exact ⟨rfl, rfl⟩

/-- A step within the session is a run on a part of what belongs to the stream. -/
theorem inSession_eq_within (call : InSession α) (t : StreamSession) :
    inSession call t =
      within (fun session => { t with toSession := session }) (call t.toSession) := by
  unfold inSession
  cases call t.toSession <;> rfl

/-- A step of the session is a step of the stream session. -/
theorem inSession_of_ok {call : InSession α} {a : α} {session : Session}
    (h : call t.toSession = .ok a session) :
    inSession call t = .ok a { t with toSession := session } := by
  unfold inSession
  rw [h]

theorem inSession_of_error {call : InSession α} {e : Failure} {session : Session}
    (h : call t.toSession = .error e session) :
    inSession call t = .error e { t with toSession := session } := by
  unfold inSession
  rw [h]

/-- A step within the session that ends well leaves the streams alone. -/
theorem inSession_eq_ok {α : Type} {call : InSession α} {a : α} {t t' : StreamSession}
    (h : inSession call t = .ok a t') :
    ∃ session, call t.toSession = .ok a session ∧ t' = { t with toSession := session } := by
  unfold inSession at h
  cases hc : call t.toSession with
  | error e session => rw [hc] at h; simp at h
  | ok b session =>
    rw [hc] at h
    obtain ⟨rfl, rfl⟩ := EStateM.Result.ok.inj h
    exact ⟨session, rfl, rfl⟩

/-- A step within the session that fails does, too. -/
theorem inSession_eq_error {α : Type} {call : InSession α} {e : Failure} {t t' : StreamSession}
    (h : inSession call t = .error e t') : ∃ session, t' = { t with toSession := session } := by
  unfold inSession at h
  cases hc : call t.toSession with
  | ok b session => rw [hc] at h; simp at h
  | error err session =>
    rw [hc] at h
    obtain ⟨-, rfl⟩ := EStateM.Result.error.inj h
    exact ⟨session, rfl⟩

/-- A reading of a header moves the source and the names that were asked, and nothing else. -/
theorem scanning_eq_ok {call : Scan StreamSource α} {a : α} {t' : StreamSession}
    (h : scanning call t = .ok a t') :
    ∃ scan, call ⟨t.source, t.asked⟩ = .ok a scan ∧
      t' = { t with source := scan.source, asked := scan.asked } := by
  unfold scanning at h
  cases hc : call ⟨t.source, t.asked⟩ with
  | error e scan => rw [hc] at h; simp at h
  | ok b scan =>
    rw [hc] at h
    obtain ⟨rfl, rfl⟩ := EStateM.Result.ok.inj h
    exact ⟨scan, rfl, rfl⟩

/-- It does so when it fails, too. -/
theorem scanning_eq_error {call : Scan StreamSource α} {e : Failure} {t' : StreamSession}
    (h : scanning call t = .error e t') :
    ∃ scan, call ⟨t.source, t.asked⟩ = .error e scan ∧
      t' = { t with source := scan.source, asked := scan.asked } := by
  unfold scanning at h
  cases hc : call ⟨t.source, t.asked⟩ with
  | ok b scan => rw [hc] at h; simp at h
  | error err scan =>
    rw [hc] at h
    obtain ⟨rfl, rfl⟩ := EStateM.Result.error.inj h
    exact ⟨scan, rfl, rfl⟩

/-- **The header at the beginning of a stream** is the header of the bytes that are delivered, and
as many are consumed. -/
theorem alike_header (r : Resolver) {c : Bytes} {failure : Option TransportError} {reader : Reader}
    (hr : reader.Delivers c failure) (ht : t.source = .ofReader reader) :
    Alike
      (fun found h s' t' => h = found.1 ∧
        Session.asking (Header.ofBytes r c) t.toSession = .ok found s' ∧
        ∃ source, t' = { t with toSession := s', source } ∧ source.consumed = found.2 ∧
          source.Delivers (c.drop found.2) failure)
      (fun e e' s' t' => e' = e.atEnd failure ∧ t'.toSession = s')
      (Session.asking (Header.ofBytes r c) t.toSession)
      (scanning (Header.decode r) t) := by
  unfold scanning Session.asking
  rw [ht]
  rcases (Header.alike_ofBytes r hr t.asked).outcome with
    ⟨found, b, asked, scan, hm, hs, hb, ha, hn, hd⟩ | ⟨e, e', asked, scan, hm, hs, he, ha⟩
  · rw [hm, hs]
    exact ⟨hb, rfl, scan.source, by simp only [ha], hn, hd⟩
  · rw [hm, hs]
    exact ⟨he, by simp only [ha]⟩

/-- The header at the beginning of a stream that ends cleanly. -/
theorem alike_scanning (r : Resolver) {c : Bytes} {reader : Reader} (hr : reader.Delivers c none)
    (ht : t.source = .ofReader reader) :
    Alike
      (fun found h s' t' => h = found.1 ∧
        Session.asking (Header.ofBytes r c) t.toSession = .ok found s' ∧
        ∃ source, t' = { t with toSession := s', source } ∧ source.Delivers (c.drop found.2) none)
      FailedSame (Session.asking (Header.ofBytes r c) t.toSession)
      (scanning (Header.decode r) t) := by
  rcases (alike_header r hr ht).outcome with
    ⟨found, h, s', t', hm, hs, hh, ha, source, ht', -, hd⟩ | ⟨e, e', s', t', hm, hs, he, ha⟩
  · rw [hm, hs]
    exact ⟨hh, by rw [← hm], source, ht', hd⟩
  · rw [hm, hs]
    exact ⟨by rw [he, Failure.atEnd_none], ha⟩

/-- **The body**: a transfer that comes to what the engine makes of the whole is a stream that
does. -/
theorem alike_transferring {engine : Engine} {d before : Bytes}
    {call : EStateM Failure Transfer Unit} (stages : StageTimes)
    (h : Alike (Transfer.Received before) Transfer.FailedSame (engine.transform d)
      (call { engine, source := t.source, writer := t.writer, stages })) :
    Alike (fun out sum s' t' => Received before out.1 sum.1 s' t') FailedSame
      (Session.result (engine.run (Engine.transform d)) t.toSession)
      (transferring engine stages call t) := by
  unfold transferring Engine.run
  rcases h.outcome with ⟨out, _, e, t', hw, hc, -, hreceived⟩ | ⟨err, err', e, t', hw, hc, hsame, -⟩
  · rw [hw, hc]
    exact ⟨hreceived, rfl⟩
  · rw [hw, hc]
    exact ⟨hsame, rfl⟩

end StreamSession

/-! ## 2. Keys and engines -/

/-- A message that was worked through an engine at once. -/
theorem Engine.run_transform_eq_ok {e left : Engine} (h : e.Settled) {d out : Bytes} :
    e.run (Engine.transform d) = .ok (out, left) ↔ e.whole d = .ok out ∧ left = e.spent := by
  rw [Engine.run, Engine.transform_eq_whole h]
  cases e.whole d with
  | error err => simp
  | ok plain => simp [eq_comm]

namespace Sealer

variable {s : Sealer}

/-- **A header that has a key has a name**, which is answered. -/
theorem keyFor_eq_ok {h : Header} {asked asked' : List String} {key : Key}
    (hk : s.keyFor h asked = .ok key asked') :
    ∃ name, h.keyName = some name ∧ name ≠ "" ∧ s.resolver.answer asked name = some key := by
  cases hname : h.keyName with
  | none => simp [keyFor, hname] at hk
  | some name =>
    simp only [keyFor, hname] at hk
    split at hk
    · simp at hk
    · rename_i hne
      exact ⟨name, rfl, hne, Resolver.answer_of_key hk⟩

/-- A header without a key fails for the want of a name, or of a key for it. -/
theorem keyFor_eq_error {h : Header} {asked asked' : List String} {e : Failure}
    (hk : s.keyFor h asked = .error e asked') :
    ∃ problem, e = .key problem ∧
      (problem = .missingKeyName ∨ ∃ name, problem = .notFound name) := by
  cases hname : h.keyName with
  | none =>
    simp only [keyFor, hname, throw_eq] at hk
    obtain ⟨rfl, -⟩ := EStateM.Result.error.inj hk
    exact ⟨_, rfl, Or.inl rfl⟩
  | some name =>
    simp only [keyFor, hname] at hk
    split at hk
    · rw [throw_eq] at hk
      obtain ⟨rfl, -⟩ := EStateM.Result.error.inj hk
      exact ⟨_, rfl, Or.inl rfl⟩
    · cases ha : s.resolver.answer asked name with
      | some key => simp [Resolver.key_of_answer ha] at hk
      | none =>
        rw [Resolver.key_of_unanswered ha] at hk
        obtain ⟨rfl, -⟩ := EStateM.Result.error.inj hk
        exact ⟨_, rfl, Or.inr ⟨name, rfl⟩⟩

/-- A name that is answered is a key. -/
theorem keyFor_of_answer {h : Header} {name : String} {key : Key} {asked : List String}
    (hname : h.keyName = some name) (hne : name ≠ "")
    (ha : s.resolver.answer asked name = some key) :
    s.keyFor h asked = .ok key (asked ++ [name]) := by
  unfold keyFor
  simp only [hname, if_neg hne, Resolver.key_of_answer ha]

/-- **A header that was read is written again, under the key that is found for it, as it was.** -/
theorem encodeWith_of_keyFor {f : String → Option Key} (hf : s.resolver = .ofFunction f) {c : Bytes}
    {h : Header} {n : Nat} {key : Key} {asked asked' done : List String}
    (hb : Header.ofBytes s.resolver c asked = .ok (h, n) asked')
    (hk : s.keyFor h asked' = .ok key done) : h.encodeWith key = c.take n := by
  obtain ⟨found, hfound, -, hanswer⟩ := keyFor_eq_ok hk
  rw [hf] at hb hanswer
  refine Header.encodeWith_of_ofBytes hb fun name hname => ?_
  rw [hfound] at hname
  obtain rfl := Option.some.inj hname
  exact hanswer

/-- What was keyed was keyed from the engine each call starts with. -/
theorem keyedEngine_eq_ok {direction : Direction} {key : Key} {nonce header : Bytes}
    {engine : Engine} (h : s.keyedEngine direction key nonce header = .ok engine) :
    Engine.keyFor direction key nonce header s.engine = .ok () engine := by
  unfold keyedEngine Engine.run at h
  cases hk : Engine.keyFor direction key nonce header s.engine with
  | error e e' => rw [hk] at h; exact absurd h (by simp [bind, Except.bind])
  | ok u e' =>
    rw [hk] at h
    obtain rfl := Except.ok.inj h
    rfl

/-- **What an opening is made of**: the header, the key for it, an engine that is keyed with both,
and what it makes of the body. -/
theorem decrypt_eq_ok {c plain : Bytes} {session done : Session} :
    s.decrypt c session = .ok plain done ↔
      ∃ h n key engine asked asked',
        Header.ofBytes s.resolver c session.asked = .ok (h, n) asked ∧
        s.keyFor h asked = .ok key asked' ∧
        Engine.keyFor .decrypt key h.nonce (c.take n) s.engine = .ok () engine ∧
        engine.whole (c.drop n) = .ok plain ∧ done = { session with asked := asked' } := by
  constructor
  · intro hd
    unfold decrypt at hd
    rw [bind_eq_ok] at hd
    obtain ⟨⟨h, n⟩, session₁, hheader, hd⟩ := hd
    obtain ⟨asked, hread, rfl⟩ := Session.asking_eq_ok hheader
    simp only at hd
    rw [bind_eq_ok] at hd
    obtain ⟨key, session₂, hkey, hd⟩ := hd
    obtain ⟨asked', hfound, rfl⟩ := Session.asking_eq_ok hkey
    rw [bind_eq_ok] at hd
    obtain ⟨engine, session₃, hresult, hd⟩ := hd
    obtain ⟨hengine, rfl⟩ := Session.result_eq_ok hresult
    have hkeyed := keyedEngine_eq_ok hengine
    rw [bind_eq_ok] at hd
    obtain ⟨⟨out, left⟩, session₄, hresult, hd⟩ := hd
    obtain ⟨hbody, rfl⟩ := Session.result_eq_ok hresult
    obtain ⟨rfl, rfl⟩ := EStateM.Result.ok.inj hd
    obtain ⟨hwhole, -⟩ := (Engine.run_transform_eq_ok (Engine.settled_keyFor hkeyed)).mp hbody
    exact ⟨h, n, key, engine, asked, asked', hread, hfound, hkeyed, hwhole, rfl⟩
  · rintro ⟨h, n, key, engine, asked, asked', hread, hfound, hkeyed, hwhole, rfl⟩
    have hkey : Session.asking (s.keyFor h) { session with asked } =
        .ok key { session with asked := asked' } :=
      Session.asking_of_ok (s := { session with asked }) hfound
    have hengine : s.keyedEngine .decrypt key h.nonce (c.take n) = .ok engine := by
      unfold keyedEngine Engine.run
      rw [hkeyed]
      rfl
    have hbody : engine.run (Engine.transform (c.drop n)) = .ok (plain, engine.spent) :=
      (Engine.run_transform_eq_ok (Engine.settled_keyFor hkeyed)).mpr ⟨hwhole, rfl⟩
    unfold decrypt
    rw [bind_of_ok (Session.asking_of_ok hread)]
    simp only
    rw [bind_of_ok hkey, hengine,
      bind_of_ok (rfl : Session.result (.ok engine) _ = .ok engine _), hbody]
    rfl

/-! ## 3. Streams -/

variable {t : StreamSession}

/-- A stream is not refused when the engine can work on one. -/
theorem checkStreams_eq_ok (hs : s.engine.streams = true) :
    StreamSession.inSession (Session.result s.checkStreams) t = .ok () t := by
  rw [checkStreams, if_pos hs]
  rfl

/-- **Opening a stream comes to what opening the whole comes to.** -/
theorem alike_decrypt {f : String → Option Key} (hf : s.resolver = .ofFunction f)
    (hs : s.engine.streams = true) (hchunk : 0 < s.config.chunkSize) {c : Bytes} {reader : Reader}
    (hr : reader.Delivers c none) (ht : t.source = .ofReader reader) (hw : t.writer.Accepting) :
    Alike (StreamSession.Received t.writer.received) StreamSession.FailedSame
      (s.decrypt c t.toSession) (s.decryptStream t) := by
  unfold decrypt decryptStream
  rw [bind_of_ok (checkStreams_eq_ok hs)]
  refine (StreamSession.alike_scanning s.resolver hr ht).bind ?_
  rintro ⟨_, n⟩ h s₁ _ ⟨rfl, hheader, source, rfl, hd⟩
  refine (StreamSession.alike_inSession (t := { t with toSession := s₁, source })
    (Session.asking (s.keyFor h))).bind ?_
  rintro _ key s₂ _ ⟨rfl, hkey, rfl⟩
  -- the header as it would be written under the key is the header as it was read
  have hform : h.encodeWith key = c.take n := by
    obtain ⟨_, hb, rfl⟩ := Session.asking_eq_ok hheader
    obtain ⟨_, hk, -⟩ := Session.asking_eq_ok hkey
    exact encodeWith_of_keyFor hf hb hk
  rw [hform]
  refine (StreamSession.alike_inSession (t := { t with toSession := s₂, source })
    (Session.result (s.keyedEngine .decrypt key h.nonce (c.take n)))).bind ?_
  rintro _ engine s₃ _ ⟨rfl, hengine, rfl⟩
  obtain ⟨hkeyed, rfl⟩ := Session.result_eq_ok hengine
  have hsettled := Engine.settled_keyFor (keyedEngine_eq_ok hkeyed)
  have hbody := Transfer.alike_inward
    (t := { engine, source, writer := t.writer, stages := stagesBefore }) hchunk hd hsettled hw
    (c.take n)
  refine (StreamSession.alike_transferring (t := { t with toSession := s₃, source }) stagesBefore
    hbody).bind ?_
  rintro ⟨plain, _⟩ ⟨summary, _⟩ s₄ t₄ hreceived
  exact hreceived

/-- **Sealing a stream comes to what sealing the whole comes to.** -/
theorem alike_encrypt (hs : s.engine.streams = true) (hchunk : 0 < s.config.chunkSize) {m : Bytes}
    {reader : Reader} (hr : reader.Delivers m none) (ht : t.source = .ofReader reader)
    (hw : t.writer.Accepting) :
    Alike (StreamSession.Received t.writer.received) StreamSession.FailedSame
      (s.encrypt m t.toSession) (s.encryptStream t) := by
  unfold encrypt encryptStream
  rw [bind_of_ok (checkStreams_eq_ok hs)]
  refine (StreamSession.alike_inSession s.newHeader).bind ?_
  rintro _ h s₁ _ ⟨rfl, -, rfl⟩
  refine (StreamSession.alike_inSession (t := { t with toSession := s₁ }) s.aliasKey).bind ?_
  rintro _ key s₂ _ ⟨rfl, -, rfl⟩
  refine (StreamSession.alike_inSession (t := { t with toSession := s₂ })
    (Session.result (s.keyedEngine .encrypt key h.nonce (h.encodeWith key)))).bind ?_
  rintro _ engine s₃ _ ⟨rfl, hengine, rfl⟩
  obtain ⟨hkeyed, rfl⟩ := Session.result_eq_ok hengine
  have hsettled := Engine.settled_keyFor (keyedEngine_eq_ok hkeyed)
  have hd : t.source.Delivers m none := by rw [ht]; exact StreamSource.delivers_ofReader hr
  have hbody := Transfer.alike_outward
    (t := { engine, source := t.source, writer := t.writer, stages := stagesBefore }) hchunk hd
    hsettled hw (h.encodeWith key)
  refine (StreamSession.alike_transferring (t := { t with toSession := s₃ }) stagesBefore
    hbody).bind ?_
  rintro ⟨body, _⟩ ⟨summary, _⟩ s₄ t₄ ⟨hreceived, hsession⟩
  refine ⟨?_, hsession⟩
  rw [hreceived, List.append_assoc]

end Sealer

end Envelope

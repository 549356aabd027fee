/-
# A stream writes the right answer, and writes it in order

Whoever watches a stream call from the writer's side sees bytes arrive, and may see them stop: the
reader breaks, the writer itself takes no more, a flush is refused, the message turns out to be at
fault.  What has arrived by then is a front of the answer that the call on the whole message gives,
never anything else, and for padded bodies never a byte of the padding (`Writes`, field `held`).
This is said for every reader and every writer, so for every point at which either may stop.  And a
call that ends well has written all of the answer and flushed it (`complete`).

Before the engine is keyed nothing is written at all.  Each of the four calls is cut in two at that
point: a beginning, which draws the nonce, finds the key and keys the engine, and a transfer.  When
the beginning fails, the writer was not called, a sealing has not called its reader, and an opening
whose header was read has taken no byte behind it (`Careful`, field `early`).
-/
import Envelope.Proofs.FailClosed
import Envelope.Proofs.Header.Stream
import Envelope.Proofs.Interchange
import Envelope.Proofs.Keying
import Envelope.Proofs.Transfer.Outcome

namespace Envelope

/-! ## 1. The promise -/

/-- **A run that writes an answer, and in order.**  The run works with a source and a writer,
`ends`, however it keeps them; `before` is the writer it began with, and `failure` what its reader
ends with.

* Whatever becomes of the run, nothing is taken back from the writer: what it held at any point of
  the run is a front of what it holds in the end.
* Whatever it held at any point, behind what it had before, is a front of the answer.
* If the run ends well, the reader has not failed, the writer has received all of the answer, and
  the flush behind it has succeeded. -/
structure Writes {σ α : Type} (ends : σ → StreamSource × Writer) (before : Writer)
    (failure : Option TransportError) (Answer : Bytes → Prop)
    (result : EStateM.Result Failure σ α) : Prop where
  kept : before.received <+: (ends (leftBy result)).2.received
  held : ∀ answer, Answer answer → ∀ front,
    before.received ++ front <+: (ends (leftBy result)).2.received → front <+: answer
  complete : ∀ a s, result = .ok a s → failure = none ∧ ∃ answer w, Answer answer ∧
    w.received = before.received ++ answer ∧ Writer.flush w = .ok () (ends s).2

/-- **A run that is careful besides**: if it fails in its beginning, it fails with the same, the
writer was not called, and the source is as `Spared` says. -/
structure Careful {σ α β : Type} (ends : σ → StreamSource × Writer) (before : Writer)
    (failure : Option TransportError) (Answer : Bytes → Prop) (Spared : StreamSource → Prop)
    (beginning : EStateM.Result Failure σ β) (result : EStateM.Result Failure σ α) : Prop extends
    Writes ends before failure Answer result where
  early : ∀ e s, beginning = .error e s →
    result = .error e s ∧ (ends s).2 = before ∧ Spared (ends s).1

namespace Writes

variable {σ τ α β : Type} {ends : σ → StreamSource × Writer} {before : Writer}
  {failure : Option TransportError} {Answer Answer' : Bytes → Prop}

/-- What was held on the way to `all` is a front of what `all` is a front of. -/
theorem front_of_all {held all front answer : Bytes} (hall : all <+: answer)
    (h : held ++ front <+: held ++ all) : front <+: answer :=
  ((List.prefix_append_right_inj held).mp h).trans hall

/-- What is held in the end is a front of the answer, too. -/
theorem front {result : EStateM.Result Failure σ α} (h : Writes ends before failure Answer result)
    (answer : Bytes) (ha : Answer answer) :
    ∃ front, front <+: answer ∧
      (ends (leftBy result)).2.received = before.received ++ front := by
  obtain ⟨front, hfront⟩ := h.kept
  exact ⟨front, h.held answer ha front (hfront ▸ List.prefix_refl _), hfront.symm⟩

/-- A run that fails and has not called the writer keeps the promise. -/
theorem of_untouched {e : Failure} {s : σ} (h : (ends s).2 = before) :
    Writes ends before failure Answer (.error e s : EStateM.Result Failure σ α) where
  kept := by
    rw [leftBy, h]
  held _ _ front hfront := by
    have hnone : (ends s).2.received = before.received ++ [] := by rw [h, List.append_nil]
    exact front_of_all List.nil_prefix (hnone ▸ hfront)
  complete _ _ hr := by simp at hr

/-- Only the writer counts, and whether the run ends well. -/
theorem of_ends {ends' : τ → StreamSource × Writer} {result : EStateM.Result Failure σ α}
    {result' : EStateM.Result Failure τ β} (h : Writes ends before failure Answer result)
    (hends : (ends' (leftBy result')).2 = (ends (leftBy result)).2)
    (hok : ∀ b t, result' = .ok b t → ∃ a s, result = .ok a s) :
    Writes ends' before failure Answer result' where
  kept := by
    rw [hends]
    exact h.kept
  held := by
    rw [hends]
    exact h.held
  complete b t hr := by
    obtain ⟨a, s, hs⟩ := hok b t hr
    rw [hr, hs] at hends
    have hsame : (ends' t).2 = (ends s).2 := hends
    rw [hsame]
    exact h.complete a s hs

/-- The same answers, found in another way. -/
theorem congr {result : EStateM.Result Failure σ α} (h : Writes ends before failure Answer result)
    (hiff : ∀ answer, Answer answer ↔ Answer' answer) :
    Writes ends before failure Answer' result where
  kept := h.kept
  held answer ha := h.held answer ((hiff answer).mpr ha)
  complete a s hr := by
    obtain ⟨hnone, answer, w, ha, hw⟩ := h.complete a s hr
    exact ⟨hnone, answer, w, (hiff answer).mp ha, hw⟩

end Writes

/-- **A beginning that spares what it should, and then a run that writes the answer.** -/
theorem Careful.bind {σ α β : Type} {ends : σ → StreamSource × Writer} {before : Writer}
    {failure : Option TransportError} {Answer : Bytes → Prop} {Spared : StreamSource → Prop}
    {x : EStateM Failure σ β} {f : β → EStateM Failure σ α} {s : σ}
    (hfails : ∀ e t, x s = .error e t → (ends t).2 = before ∧ Spared (ends t).1)
    (hgoes : ∀ b t, x s = .ok b t → Writes ends before failure Answer (f b t)) :
    Careful ends before failure Answer Spared (x s) ((x >>= f) s) := by
  cases h : x s with
  | ok b t =>
    rw [bind_of_ok h]
    exact ⟨hgoes b t h, by simp⟩
  | error e t =>
    obtain ⟨hwriter, hspared⟩ := hfails e t h
    rw [bind_of_error h]
    refine ⟨Writes.of_untouched hwriter, fun e' t' hsame => ?_⟩
    obtain ⟨rfl, rfl⟩ := EStateM.Result.error.inj hsame
    exact ⟨rfl, hwriter, hspared⟩

/-- **No byte behind the header was taken**: where the bytes of a reader begin with a header, the
source that is left has nothing in its queue, and the reader has handed out no more than the
header. -/
def Header.NoneBehind (r : Resolver) (reader : Reader) (asked : List String)
    (source : StreamSource) : Prop :=
  ∀ h scan, decode r ⟨StreamSource.ofReader reader, asked⟩ = .ok h scan →
    source.replay = [] ∧ ∃ taken, taken.length ≤ h.length ∧
      reader.unread = taken ++ source.reader.unread

/-- A source that nothing was taken from, or what the header took, is no further than the header. -/
theorem Header.noneBehind {r : Resolver} {reader : Reader} {d : Bytes}
    {failure : Option TransportError} {asked : List String} {source : StreamSource}
    (hr : reader.Delivers d failure)
    (h : ∀ h scan, decode r ⟨StreamSource.ofReader reader, asked⟩ = .ok h scan →
      source = .ofReader reader ∨ source = scan.source) :
    NoneBehind r reader asked source := by
  intro header scan hdecode
  rcases h header scan hdecode with rfl | rfl
  · exact ⟨rfl, [], Nat.zero_le _, rfl⟩
  · obtain ⟨-, -, hreplay, taken, hlength, htaken⟩ := taken_of_decode hr hdecode
    exact ⟨hreplay, taken, Nat.le_of_eq hlength, htaken⟩

/-! ## 2. Transfers -/

namespace Transfer

variable {t : Transfer} {size : Nat} {d : Bytes} {failure : Option TransportError}

/-- **A body writes what the engine makes of all that the source has.** -/
theorem writes_body (hsize : 0 < size) (hd : t.source.Delivers d failure) (he : t.engine.Settled) :
    Writes ends t.writer failure (fun out => t.engine.whole t.source.unread = .ok out)
      (body size t) where
  kept := grows_body size t
  held _ hw front hfront := by
    obtain ⟨all, hall, hreceived⟩ := (body_outcome size he).held hsize hd hw
    exact Writes.front_of_all hall (hreceived ▸ hfront)
  complete u t' hr := by
    have houtcome := body_outcome size he
    rw [hr] at houtcome
    obtain ⟨out, w, hnone, hwhole, hreceived, hflushed⟩ := houtcome.complete hsize hd
    exact ⟨hnone, out, w, hwhole, hreceived, hflushed⟩

/-- **Opening** writes the body. -/
theorem writes_inward (hsize : 0 < size) (hd : t.source.Delivers d failure)
    (he : t.engine.Settled) (header : Bytes) :
    Writes ends t.writer failure (fun out => t.engine.whole t.source.unread = .ok out)
      (inward header size t) :=
  writes_body (t := { t with counts := t.counts.addHeader header.length }) hsize hd he

/-- **Sealing** writes the header and then the body. -/
theorem writes_outward (hsize : 0 < size) (hd : t.source.Delivers d failure)
    (he : t.engine.Settled) (header : Bytes) :
    Writes ends t.writer failure
      (fun out => ∃ body, t.engine.whole t.source.unread = .ok body ∧ out = header ++ body)
      (outward header size t) := by
  rcases Writer.writeAll_cases header t.writer with ⟨w, hw, hr⟩ | ⟨e, w, taken, hw, hfront, hr⟩
  · obtain ⟨t₁, ht₁⟩ : ∃ t₁ : Transfer, t₁ =
        { ({ t with writer := w } : Transfer).enter .write with
          counts := t.counts.addHeader header.length } := ⟨_, rfl⟩
    have hrest : outward header size t = body size t₁ := by
      rw [outward, bind_of_ok (onWriter_of_ok hw), ht₁]
      rfl
    have hengine : t₁.engine = t.engine := by rw [ht₁]; rfl
    have hsource : t₁.source = t.source := by rw [ht₁]; rfl
    have hwriter : t₁.writer = w := by rw [ht₁]; rfl
    have hbody := writes_body (t := t₁) hsize (hsource ▸ hd) (hengine ▸ he)
    rw [hrest]
    rw [hengine, hsource, hwriter] at hbody
    refine ⟨?_, ?_, ?_⟩
    · have hheader : t.writer.received <+: w.received := ⟨header, hr.symm⟩
      exact hheader.trans hbody.kept
    · rintro _ ⟨out, hwhole, rfl⟩ front hfront
      obtain ⟨behind, hbehind, hreceived⟩ := hbody.front out hwhole
      rw [hreceived, hr, List.append_assoc] at hfront
      exact Writes.front_of_all ((List.prefix_append_right_inj header).mpr hbehind) hfront
    · intro u t' hok
      obtain ⟨hnone, out, w', hwhole, hreceived, hflushed⟩ := hbody.complete u t' hok
      refine ⟨hnone, header ++ out, w', ⟨out, hwhole, rfl⟩, ?_, hflushed⟩
      rw [hreceived, hr, List.append_assoc]
  · rw [outward, bind_of_error (onWriter_of_error hw)]
    refine ⟨?_, ?_, by simp⟩
    · exact ⟨taken, hr.symm⟩
    · rintro _ ⟨out, -, rfl⟩ front hheld
      exact Writes.front_of_all (hfront.trans (List.prefix_append _ _)) (hr ▸ hheld)

end Transfer

/-! ## 3. A sealer -/

/-- Only an authenticating engine looks at the associated data. -/
theorem Engine.keyFor_of_not_aead {e : Engine} (h : e.isAead = false) (direction : Direction)
    (key : Key) (nonce header header' : Bytes) :
    keyFor direction key nonce header e = keyFor direction key nonce header' e := by
  cases e with
  | aead e => simp [isAead] at h
  | cbc e => rfl

namespace StreamSession

variable {α β : Type} {t : StreamSession} {failure : Option TransportError} {Answer : Bytes → Prop}

/-- A step within the session is a run on a part of the state. -/
theorem inSession_eq_onPart (call : InSession α) :
    inSession call =
      onPart StreamSession.toSession (fun t session => { t with toSession := session }) call := by
  funext t
  exact inSession_eq_within call t

/-- Steps within the session, one after the other, are one step. -/
theorem inSession_bind (x : InSession α) (f : α → InSession β) :
    inSession (x >>= f) = inSession x >>= fun a => inSession (f a) := by
  simp only [inSession_eq_onPart]
  refine onPart_bind ?_ ?_ x f
  · intro _ _; rfl
  · intro _ _ _; rfl

/-- A step within the session leaves both ends alone. -/
theorem keeps_ends_inSession (call : InSession α) : Keeps ends (inSession call) := by
  intro t
  rw [inSession_eq_within, leftBy_within]
  rfl

/-- What a transfer writes, its session writes. -/
theorem writes_transferring {engine : Engine} {stages : StageTimes}
    {call : EStateM Failure Transfer Unit}
    (h : Writes Transfer.ends t.writer failure Answer
      (call { engine, source := t.source, writer := t.writer, stages })) :
    Writes ends t.writer failure Answer
      ((transferring engine stages call >>= fun out => pure out.1) t) := by
  cases hc : call { engine, source := t.source, writer := t.writer, stages } with
  | ok _ t' =>
    have hstep : transferring engine stages call t =
        .ok (t'.summary, t'.engine) { t with source := t'.source, writer := t'.writer } := by
      unfold transferring
      rw [hc]
    rw [hc] at h
    rw [bind_of_ok hstep]
    exact h.of_ends rfl fun _ _ _ => ⟨(), t', rfl⟩
  | error e t' =>
    have hstep : transferring engine stages call t =
        .error e { t with source := t'.source, writer := t'.writer } := by
      unfold transferring
      rw [hc]
    rw [hc] at h
    rw [bind_of_error hstep]
    exact h.of_ends rfl fun _ _ hr => by simp at hr

end StreamSession

namespace Sealer

variable {s : Sealer}

/-- What sealing does before it reads: the header and the engine that is keyed with it. -/
def sealing (s : Sealer) : InSession (Bytes × Engine) := do
  let h ← s.newHeader
  let key ← s.aliasKey
  let header := h.encodeWith key
  let engine ← Session.result (s.keyedEngine .encrypt key h.nonce header)
  return (header, engine)

/-- The beginning of sealing a stream: it touches neither of its ends. -/
def streamSealing (s : Sealer) : InStream (Bytes × Engine) :=
  StreamSession.inSession (Session.result s.checkStreams >>= fun _ => s.sealing)

/-- The beginning of opening a stream, up to the engine that is keyed. -/
def streamOpening (s : Sealer) : InStream (Bytes × Engine) := do
  StreamSession.inSession (Session.result s.checkStreams)
  let k ← s.streamKeying
  let engine ← StreamSession.inSession
    (Session.result (s.keyedEngine .decrypt k.key k.nonce k.header))
  return (k.header, engine)

/-- Sealing is the beginning and then the body. -/
theorem encrypt_eq_sealing (m : Bytes) :
    s.encrypt m = s.sealing >>= fun begun =>
      Session.result (begun.2.run (Engine.transform m)) >>= fun out =>
        pure (begun.1 ++ out.1) := by
  unfold encrypt sealing
  simp only [bind_assoc, pure_bind]

/-- **Sealing a stream is the beginning and then the transfer.** -/
theorem encryptStream_eq_sealing :
    s.encryptStream = s.streamSealing >>= fun begun =>
      StreamSession.transferring begun.2 stagesBefore
        (Transfer.outward begun.1 s.config.chunkSize) >>= fun out => pure out.1 := by
  unfold encryptStream streamSealing sealing
  simp only [StreamSession.inSession_bind, bind_assoc]
  rfl

/-- **Opening a stream is the beginning and then the transfer.** -/
theorem decryptStream_eq_opening :
    s.decryptStream = s.streamOpening >>= fun begun =>
      StreamSession.transferring begun.2 stagesBefore
        (Transfer.inward begun.1 s.config.chunkSize) >>= fun out => pure out.1 := by
  rw [decryptStream_eq_keying]
  unfold streamOpening openRest
  simp only [bind_assoc, pure_bind]

/-! ### Sealing -/

/-- **A sealing that has begun**: a header was built, and the engine keyed with it. -/
theorem sealing_eq_ok {session after : Session} {begun : Bytes × Engine}
    (h : s.sealing session = .ok begun after) :
    ∃ (header : Header) (key : Key), header.Built ∧ begun.1 = header.encodeWith key ∧
      Engine.keyFor .encrypt key header.nonce (header.encodeWith key) s.engine =
        .ok () begun.2 := by
  unfold sealing at h
  obtain ⟨header, _, hnew, h⟩ := bind_eq_ok.mp h
  obtain ⟨key, _, -, h⟩ := bind_eq_ok.mp h
  obtain ⟨engine, _, hresult, h⟩ := bind_eq_ok.mp h
  obtain ⟨hkeyed, -⟩ := Session.result_eq_ok hresult
  obtain ⟨rfl, -⟩ := EStateM.Result.ok.inj h
  exact ⟨header, key, (newHeader_eq_ok hnew).1, rfl, keyedEngine_eq_ok hkeyed⟩

/-- The engine that a beginning has keyed is at the beginning of a message. -/
theorem settled_of_sealing {session after : Session} {begun : Bytes × Engine}
    (h : s.sealing session = .ok begun after) : begun.2.Settled := by
  obtain ⟨_, _, -, -, hkeyed⟩ := sealing_eq_ok h
  exact Engine.settled_keyFor hkeyed

/-- **What sealing comes to once it has begun**: the header, and what the engine makes of the
message. -/
theorem encrypt_of_sealing {m c : Bytes} {session session' : Session} {begun : Bytes × Engine}
    (h : s.sealing session = .ok begun session') :
    (∃ after, s.encrypt m session = .ok c after) ↔
      ∃ body, begun.2.whole m = .ok body ∧ c = begun.1 ++ body := by
  have hsettled := settled_of_sealing h
  rw [encrypt_eq_sealing, bind_of_ok h]
  constructor
  · rintro ⟨after, he⟩
    obtain ⟨out, _, hresult, he⟩ := bind_eq_ok.mp he
    obtain ⟨hrun, -⟩ := Session.result_eq_ok hresult
    obtain ⟨rfl, -⟩ := EStateM.Result.ok.inj he
    exact ⟨out.1, ((Engine.run_transform_eq_ok hsettled).mp hrun).1, rfl⟩
  · rintro ⟨body, hwhole, rfl⟩
    have hrun := (Engine.run_transform_eq_ok hsettled).mpr ⟨hwhole, rfl⟩
    refine ⟨session', ?_⟩
    rw [hrun]
    rfl

variable {t : StreamSession} {reader : Reader} {d : Bytes} {failure : Option TransportError}

/-- **A sealing writes the ciphertext of all that the reader has.**  If it fails before its engine
is keyed, the reader was not called. -/
theorem careful_encryptStream (hchunk : 0 < s.config.chunkSize) (hr : reader.Delivers d failure)
    (ht : t.source = .ofReader reader) :
    Careful StreamSession.ends t.writer failure
      (fun c => ∃ after, s.encrypt reader.unread t.toSession = .ok c after)
      (fun source => source = .ofReader reader) (s.streamSealing t) (s.encryptStream t) := by
  rw [encryptStream_eq_sealing]
  refine Careful.bind ?_ ?_
  · intro e t' hfails
    obtain ⟨session, rfl⟩ := StreamSession.inSession_eq_error hfails
    exact ⟨rfl, ht⟩
  · intro begun t' hbegun
    obtain ⟨session, hcall, rfl⟩ := StreamSession.inSession_eq_ok hbegun
    obtain ⟨_, _, hcheck, hsealing⟩ := bind_eq_ok.mp hcall
    obtain ⟨-, rfl⟩ := Session.result_eq_ok hcheck
    have hd : t.source.Delivers d failure := by rw [ht]; exact StreamSource.delivers_ofReader hr
    have hwrites := Transfer.writes_outward
      (t := ⟨begun.2, t.source, t.writer, {}, stagesBefore⟩) hchunk hd
      (settled_of_sealing hsealing) begun.1
    refine (StreamSession.writes_transferring
      (t := { t with toSession := session }) hwrites).congr fun c => ?_
    have hunread : t.source.unread = reader.unread := by rw [ht]; rfl
    rw [encrypt_of_sealing hsealing]
    simp only [hunread]

/-! ### Opening -/

/-- **A message whose header, key and engine are known** opens to what the engine makes of the
body. -/
theorem decrypt_of_keyed {c plain : Bytes} {h : Header} {n : Nat} {key : Key} {engine : Engine}
    {session : Session} {asked asked' : List String}
    (hread : Header.ofBytes s.resolver c session.asked = .ok (h, n) asked)
    (hkey : s.keyFor h asked = .ok key asked')
    (hkeyed : Engine.keyFor .decrypt key h.nonce (c.take n) s.engine = .ok () engine) :
    (∃ done, s.decrypt c session = .ok plain done) ↔ engine.whole (c.drop n) = .ok plain := by
  constructor
  · rintro ⟨done, hd⟩
    obtain ⟨h', n', key', engine', _, _, hread', hkey', hkeyed', hwhole, -⟩ := decrypt_eq_ok.mp hd
    rw [hread] at hread'
    obtain ⟨⟨⟩, rfl⟩ := EStateM.Result.ok.inj hread'
    rw [hkey] at hkey'
    obtain ⟨rfl, rfl⟩ := EStateM.Result.ok.inj hkey'
    rw [hkeyed] at hkeyed'
    obtain ⟨-, rfl⟩ := EStateM.Result.ok.inj hkeyed'
    exact hwhole
  · intro hwhole
    exact ⟨_, decrypt_eq_ok.mpr
      ⟨h, n, key, engine, asked, asked', hread, hkey, hkeyed, hwhole, rfl⟩⟩

/-- **An opening that has begun**: a header was read, a key found for it, and the engine keyed with
both and with the header written again; the stream stands behind the header. -/
theorem streamOpening_eq_ok {begun : Bytes × Engine} {t' : StreamSession}
    (ho : s.streamOpening t = .ok begun t') :
    ∃ h scan key asked, Header.decode s.resolver ⟨t.source, t.asked⟩ = .ok h scan ∧
      s.keyFor h scan.asked = .ok key asked ∧ begun.1 = h.encodeWith key ∧
      Engine.keyFor .decrypt key h.nonce (h.encodeWith key) s.engine = .ok () begun.2 ∧
      t' = { t with source := scan.source, asked } := by
  unfold streamOpening streamKeying at ho
  obtain ⟨_, t₁, hcheck, ho⟩ := bind_eq_ok.mp ho
  obtain ⟨_, hresult, rfl⟩ := StreamSession.inSession_eq_ok hcheck
  obtain ⟨-, rfl⟩ := Session.result_eq_ok hresult
  obtain ⟨k, t₂, hkeying, ho⟩ := bind_eq_ok.mp ho
  obtain ⟨h, _, hscan, hkeying⟩ := bind_eq_ok.mp hkeying
  obtain ⟨scan, hdecode, rfl⟩ := StreamSession.scanning_eq_ok hscan
  obtain ⟨key, _, hkey, hkeying⟩ := bind_eq_ok.mp hkeying
  obtain ⟨_, hasking, rfl⟩ := StreamSession.inSession_eq_ok hkey
  obtain ⟨asked, hfound, rfl⟩ := Session.asking_eq_ok hasking
  obtain ⟨rfl, rfl⟩ := EStateM.Result.ok.inj hkeying
  obtain ⟨engine, t₃, hengine, ho⟩ := bind_eq_ok.mp ho
  obtain ⟨_, hresult, rfl⟩ := StreamSession.inSession_eq_ok hengine
  obtain ⟨hkeyed, rfl⟩ := Session.result_eq_ok hresult
  obtain ⟨rfl, rfl⟩ := EStateM.Result.ok.inj ho
  exact ⟨h, scan, key, asked, hdecode, hfound, rfl, keyedEngine_eq_ok hkeyed, rfl⟩

/-- **An opening that fails before its engine is keyed** has not called the writer, and has taken
nothing off the stream, or what the header took. -/
theorem streamOpening_eq_error {e : Failure} {t' : StreamSession}
    (ho : s.streamOpening t = .error e t') :
    t'.writer = t.writer ∧
      ∀ h scan, Header.decode s.resolver ⟨t.source, t.asked⟩ = .ok h scan →
        t'.source = t.source ∨ t'.source = scan.source := by
  unfold streamOpening streamKeying at ho
  cases hcheck : StreamSession.inSession (Session.result s.checkStreams) t with
  | error e₁ t₁ =>
    rw [bind_of_error hcheck] at ho
    obtain ⟨-, rfl⟩ := EStateM.Result.error.inj ho
    obtain ⟨_, rfl⟩ := StreamSession.inSession_eq_error hcheck
    exact ⟨rfl, fun _ _ _ => Or.inl rfl⟩
  | ok _ t₁ =>
    rw [bind_of_ok hcheck] at ho
    obtain ⟨_, hresult, rfl⟩ := StreamSession.inSession_eq_ok hcheck
    obtain ⟨-, rfl⟩ := Session.result_eq_ok hresult
    rw [bind_assoc] at ho
    cases hscan : StreamSession.scanning (Header.decode s.resolver) t with
    | error e₂ t₂ =>
      rw [bind_of_error hscan] at ho
      obtain ⟨-, rfl⟩ := EStateM.Result.error.inj ho
      obtain ⟨scan, hdecode, rfl⟩ := StreamSession.scanning_eq_error hscan
      refine ⟨rfl, fun h scan' hread => ?_⟩
      rw [hdecode] at hread
      simp at hread
    | ok h t₂ =>
      rw [bind_of_ok hscan] at ho
      obtain ⟨scan, hdecode, rfl⟩ := StreamSession.scanning_eq_ok hscan
      -- what is left are steps within the session
      have hrest := Keeps.bind
        ((StreamSession.keeps_ends_inSession (Session.asking (s.keyFor h))).bind fun key =>
          Keeps.pure (⟨key, h.nonce, h.encodeWith key⟩ : Keying))
        (fun k => (StreamSession.keeps_ends_inSession
          (Session.result (s.keyedEngine .decrypt k.key k.nonce k.header))).bind fun engine =>
            Keeps.pure (k.header, engine))
        { t with source := scan.source, asked := scan.asked }
      simp only [bind_assoc, pure_bind] at ho hrest
      rw [ho] at hrest
      obtain ⟨hsource, hwriter⟩ := Prod.mk.inj hrest
      refine ⟨hwriter, fun h' scan' hread => Or.inr ?_⟩
      rw [hdecode] at hread
      obtain ⟨-, rfl⟩ := EStateM.Result.ok.inj hread
      exact hsource

/-- **The rest of the stream behind a beginning is what the whole message opens to**, if the header
written again is the header that was read: under a resolver whose answers depend on the name alone,
or where nothing depends on the header. -/
theorem decrypt_of_opening (hr : reader.Delivers d failure) (ht : t.source = .ofReader reader)
    (hsteady : s.engine.isAead = true → ∃ f, s.resolver = .ofFunction f)
    {begun : Bytes × Engine} {t' : StreamSession} (ho : s.streamOpening t = .ok begun t')
    (plain : Bytes) :
    (∃ done, s.decrypt reader.unread t.toSession = .ok plain done) ↔
      begun.2.whole t'.source.unread = .ok plain := by
  obtain ⟨h, scan, key, asked, hdecode, hkey, -, hkeyed, rfl⟩ := streamOpening_eq_ok ho
  rw [ht] at hdecode
  obtain ⟨hfront, -, hreplay, taken, hlength, htaken⟩ := Header.taken_of_decode hr hdecode
  obtain ⟨beyond, hunread, -⟩ := hr.unread
  have hread : Header.ofBytes s.resolver reader.unread t.asked =
      .ok (h, h.length) scan.asked := by
    rw [hunread]
    exact Header.ofBytes_append hfront beyond
  have hleft : scan.source.unread = reader.unread.drop h.length := by
    rw [StreamSource.unread, hreplay, htaken, List.nil_append, List.drop_left' hlength]
  have hwhole : Engine.keyFor .decrypt key h.nonce (reader.unread.take h.length) s.engine =
      .ok () begun.2 := by
    cases haead : s.engine.isAead with
    | false => rw [← hkeyed, Engine.keyFor_of_not_aead haead]
    | true =>
      obtain ⟨f, hf⟩ := hsteady haead
      rw [← encodeWith_of_keyFor hf hread hkey]
      exact hkeyed
  rw [decrypt_of_keyed hread hkey hwhole, ← hleft]

/-- **An opening writes what all that the reader has opens to.**  If it fails before its engine is
keyed, no byte behind the header was taken. -/
theorem careful_decryptStream (hchunk : 0 < s.config.chunkSize) (hr : reader.Delivers d failure)
    (ht : t.source = .ofReader reader)
    (hsteady : s.engine.isAead = true → ∃ f, s.resolver = .ofFunction f) :
    Careful StreamSession.ends t.writer failure
      (fun plain => ∃ done, s.decrypt reader.unread t.toSession = .ok plain done)
      (Header.NoneBehind s.resolver reader t.asked) (s.streamOpening t) (s.decryptStream t) := by
  rw [decryptStream_eq_opening]
  refine Careful.bind ?_ ?_
  · intro e t' hfails
    obtain ⟨hwriter, hsource⟩ := streamOpening_eq_error hfails
    rw [ht] at hsource
    exact ⟨hwriter, Header.noneBehind hr hsource⟩
  · intro begun t' hbegun
    have hplain := decrypt_of_opening hr ht hsteady hbegun
    obtain ⟨h, scan, key, asked, hdecode, -, -, hkeyed, rfl⟩ := streamOpening_eq_ok hbegun
    rw [ht] at hdecode
    obtain ⟨-, hd, -⟩ := Header.taken_of_decode hr hdecode
    have hwrites := Transfer.writes_inward
      (t := ⟨begun.2, scan.source, t.writer, {}, stagesBefore⟩) hchunk hd
      (Engine.settled_keyFor hkeyed) begun.1
    exact (StreamSession.writes_transferring (t := { t with source := scan.source, asked })
      hwrites).congr fun plain => (hplain plain).symm

end Sealer

/-! ## 4. A key in hand -/

namespace WithKey

/-- What sealing does before it reads: the header, and the engine keyed with it. -/
def sealing (key : Key) : AtDesk Bytes := do
  let h ← newHeader
  onEngine (Engine.keyFor .encrypt key h.nonce h.encode)
  return h.encode

/-- The beginning of sealing a stream: it touches neither of its ends. -/
def streamSealing (key : Key) : AtStream Bytes :=
  atDesk (checkStreams >>= fun _ => sealing key)

/-- The beginning of opening a stream, up to the engine that is keyed. -/
def streamOpening (key : Key) : AtStream Bytes := do
  atDesk checkStreams
  let h ← readHeader key
  atDesk (onEngine (Engine.keyFor .decrypt key h.nonce (h.encodeWith key)))
  return h.encodeWith key

/-- A step at a desk is a run on a part of the state. -/
theorem atDesk_eq_onPart {α : Type} (call : AtDesk α) :
    atDesk call = onPart StreamDesk.toDesk (fun t desk => { t with toDesk := desk }) call := by
  funext t
  exact atDesk_eq_within call t

/-- Steps at a desk, one after the other, are one step. -/
theorem atDesk_bind {α β : Type} (x : AtDesk α) (f : α → AtDesk β) :
    atDesk (x >>= f) = atDesk x >>= fun a => atDesk (f a) := by
  simp only [atDesk_eq_onPart]
  refine onPart_bind ?_ ?_ x f
  · intro _ _; rfl
  · intro _ _ _; rfl

variable {key : Key} {t : StreamDesk} {reader : Reader} {d : Bytes}
  {failure : Option TransportError} {Answer : Bytes → Prop}

/-- Sealing is the beginning and then the body. -/
theorem encrypt_eq_sealing (m : Bytes) :
    encrypt key m = sealing key >>= fun header =>
      onEngine (Engine.transform m) >>= fun body => pure (header ++ body) := by
  unfold encrypt sealing
  simp only [bind_assoc, pure_bind]

/-- **Sealing a stream is the beginning and then the transfer.** -/
theorem encryptStream_eq_sealing (chunkSize : Nat) :
    encryptStream key chunkSize = streamSealing key >>= fun header =>
      transferring (Transfer.outward header (max chunkSize 1)) := by
  unfold encryptStream streamSealing sealing
  simp only [atDesk_bind, bind_assoc]
  rfl

/-- **Opening a stream is the beginning and then the transfer.** -/
theorem decryptStream_eq_opening (chunkSize : Nat) :
    decryptStream key chunkSize = streamOpening key >>= fun header =>
      transferring (Transfer.inward header (max chunkSize 1)) := by
  unfold decryptStream streamOpening
  simp only [bind_assoc, pure_bind]

/-- What a transfer writes, its desk writes. -/
theorem writes_transferring {call : EStateM Failure Transfer Unit}
    (h : Writes Transfer.ends t.writer failure Answer (call (begun t))) :
    Writes StreamDesk.ends t.writer failure Answer (transferring call t) := by
  rw [transferring_eq]
  cases hc : call (begun t) with
  | ok _ t' =>
    rw [hc] at h
    exact h.of_ends rfl fun _ _ _ => ⟨(), t', rfl⟩
  | error e t' =>
    rw [hc] at h
    exact h.of_ends rfl fun _ _ hr => by simp at hr

/-! ### Sealing -/

/-- **A sealing that has begun**: a header without a name was built, and the engine keyed with
it. -/
theorem sealing_eq_ok {desk desk' : Desk} {header : Bytes}
    (h : sealing key desk = .ok header desk') :
    ∃ plain : PlainHeader, Header.Built (.plain plain) ∧ header = plain.encode ∧
      Engine.keyFor .encrypt key plain.nonce plain.encode desk.engine = .ok () desk'.engine := by
  unfold sealing at h
  obtain ⟨plain, _, hnew, h⟩ := bind_eq_ok.mp h
  obtain ⟨_, _, hkey, h⟩ := bind_eq_ok.mp h
  obtain ⟨rfl, rfl⟩ := EStateM.Result.ok.inj h
  obtain ⟨hbuilt, -, hengine⟩ := newHeader_eq_ok hnew
  exact ⟨plain, hbuilt, rfl, hengine ▸ onEngine_eq_ok hkey⟩

/-- A beginning leaves an engine at the beginning of a message, and sealing comes to the header and
what that engine makes of the message. -/
theorem encrypt_of_sealing {desk desk' : Desk} {header : Bytes}
    (h : sealing key desk = .ok header desk') :
    desk'.engine.Settled ∧ ∀ m c, (∃ after, encrypt key m desk = .ok c after) ↔
      ∃ body, desk'.engine.whole m = .ok body ∧ c = header ++ body := by
  have hsettled : desk'.engine.Settled := by
    obtain ⟨_, -, -, hkeyed⟩ := sealing_eq_ok h
    exact Engine.settled_keyFor hkeyed
  refine ⟨hsettled, fun m c => ?_⟩
  have hbody := Engine.transform_eq_whole hsettled m
  rw [encrypt_eq_sealing, bind_of_ok h]
  cases hwhole : desk'.engine.whole m with
  | error err =>
    rw [hwhole] at hbody
    rw [bind_of_error (onEngine_of_error hbody)]
    simp
  | ok body =>
    rw [hwhole] at hbody
    rw [bind_of_ok (onEngine_of_ok hbody), pure_eq]
    simp [eq_comm]

/-- **A sealing writes the ciphertext of all that the reader has**, whatever the size of its chunks.
If it fails before its engine is keyed, the reader was not called. -/
theorem careful_encryptStream (chunkSize : Nat) (hr : reader.Delivers d failure)
    (ht : t.source = .ofReader reader) :
    Careful StreamDesk.ends t.writer failure
      (fun c => ∃ after, encrypt key reader.unread t.toDesk = .ok c after)
      (fun source => source = .ofReader reader) (streamSealing key t)
      (encryptStream key chunkSize t) := by
  rw [encryptStream_eq_sealing]
  refine Careful.bind ?_ ?_
  · intro e t' hfails
    obtain ⟨desk, rfl⟩ := atDesk_eq_error hfails
    exact ⟨rfl, ht⟩
  · intro header t' hbegun
    obtain ⟨desk, hcall, rfl⟩ := atDesk_eq_ok hbegun
    obtain ⟨_, desk₁, hcheck, hsealing⟩ := bind_eq_ok.mp hcall
    obtain rfl := eq_of_checkStreams hcheck
    obtain ⟨hsettled, hcomes⟩ := encrypt_of_sealing hsealing
    have hd : t.source.Delivers d failure := by rw [ht]; exact StreamSource.delivers_ofReader hr
    have hunread : t.source.unread = reader.unread := by rw [ht]; rfl
    have hwrites := Transfer.writes_outward (t := begun { t with toDesk := desk })
      (chunk_pos chunkSize) hd hsettled header
    refine (writes_transferring (t := { t with toDesk := desk }) hwrites).congr fun c => ?_
    rw [hcomes]
    show (∃ body, desk.engine.whole t.source.unread = .ok body ∧ c = header ++ body) ↔ _
    rw [hunread]

/-! ### Opening -/

/-- **A message whose header and engine are known** opens to what the engine makes of the body. -/
theorem decrypt_of_keyed {c plain : Bytes} {h : Header} {n : Nat} {asked : List String}
    {desk : Desk} {keyed : Engine}
    (hread : Header.ofBytes (.fixed key) c [] = .ok (h, n) asked)
    (hkeyed : Engine.keyFor .decrypt key h.nonce (c.take n) desk.engine = .ok () keyed) :
    (∃ done, decrypt key c desk = .ok plain done) ↔ keyed.whole (c.drop n) = .ok plain := by
  constructor
  · rintro ⟨done, hd⟩
    rw [decrypt_eq, bind_of_ok (header_of_ofBytes hread desk),
      bind_of_ok (onEngine_of_ok hkeyed)] at hd
    have hbody := onEngine_eq_ok hd
    rw [Engine.transform_eq_whole (Engine.settled_keyFor hkeyed)] at hbody
    cases hwhole : keyed.whole (c.drop n) with
    | error err => simp [hwhole] at hbody
    | ok out =>
      rw [hwhole] at hbody
      rw [(EStateM.Result.ok.inj hbody).1]
  · exact decrypt_of_whole hread hkeyed

/-- **An opening that has begun**: a header was read and the engine keyed with the header written
again; the stream stands behind the header. -/
theorem streamOpening_eq_ok {header : Bytes} {t' : StreamDesk}
    (ho : streamOpening key t = .ok header t') :
    ∃ h scan, Header.decode (.fixed key) ⟨t.source, []⟩ = .ok h scan ∧
      header = h.encodeWith key ∧
      Engine.keyFor .decrypt key h.nonce (h.encodeWith key) t.engine = .ok () t'.engine ∧
      t'.source = scan.source ∧ t'.writer = t.writer := by
  unfold streamOpening at ho
  obtain ⟨_, _, hcheck, ho⟩ := bind_eq_ok.mp ho
  obtain ⟨_, hstep, rfl⟩ := atDesk_eq_ok hcheck
  obtain rfl := eq_of_checkStreams hstep
  obtain ⟨h, _, hheader, ho⟩ := bind_eq_ok.mp ho
  obtain ⟨scan, hdecode, rfl⟩ := readHeader_eq_ok hheader
  obtain ⟨_, _, hkey, ho⟩ := bind_eq_ok.mp ho
  obtain ⟨desk, hcall, rfl⟩ := atDesk_eq_ok hkey
  obtain ⟨rfl, rfl⟩ := EStateM.Result.ok.inj ho
  exact ⟨h, scan, hdecode, rfl, onEngine_eq_ok hcall, rfl, rfl⟩

/-- **An opening that fails before its engine is keyed** has not called the writer, and has taken
nothing off the stream, or what the header took. -/
theorem streamOpening_eq_error {e : Failure} {t' : StreamDesk}
    (ho : streamOpening key t = .error e t') :
    t'.writer = t.writer ∧
      ∀ h scan, Header.decode (.fixed key) ⟨t.source, []⟩ = .ok h scan →
        t'.source = t.source ∨ t'.source = scan.source := by
  unfold streamOpening at ho
  cases hcheck : atDesk checkStreams t with
  | error e₁ t₁ =>
    rw [bind_of_error hcheck] at ho
    obtain ⟨-, rfl⟩ := EStateM.Result.error.inj ho
    obtain ⟨_, rfl⟩ := atDesk_eq_error hcheck
    exact ⟨rfl, fun _ _ _ => Or.inl rfl⟩
  | ok _ t₁ =>
    rw [bind_of_ok hcheck] at ho
    obtain ⟨_, hstep, rfl⟩ := atDesk_eq_ok hcheck
    obtain rfl := eq_of_checkStreams hstep
    cases hheader : readHeader key t with
    | error e₂ t₂ =>
      rw [bind_of_error hheader] at ho
      obtain ⟨-, rfl⟩ := EStateM.Result.error.inj ho
      obtain ⟨scan, hdecode, rfl⟩ := readHeader_eq_error hheader
      refine ⟨rfl, fun h scan' hread => ?_⟩
      rw [hdecode] at hread
      simp at hread
    | ok h t₂ =>
      rw [bind_of_ok hheader] at ho
      obtain ⟨scan, hdecode, rfl⟩ := readHeader_eq_ok hheader
      cases hkey : atDesk (onEngine (Engine.keyFor .decrypt key h.nonce (h.encodeWith key)))
          { t with source := scan.source } with
      | ok _ t₃ =>
        rw [bind_of_ok hkey] at ho
        simp at ho
      | error e₃ t₃ =>
        rw [bind_of_error hkey] at ho
        obtain ⟨-, rfl⟩ := EStateM.Result.error.inj ho
        obtain ⟨_, rfl⟩ := atDesk_eq_error hkey
        refine ⟨rfl, fun h' scan' hread => Or.inr ?_⟩
        rw [hdecode] at hread
        obtain ⟨-, rfl⟩ := EStateM.Result.ok.inj hread
        rfl

/-- **The rest of the stream behind a beginning is what the whole message opens to**: with a key in
hand the header written again is always the header that was read. -/
theorem decrypt_of_opening (hr : reader.Delivers d failure) (ht : t.source = .ofReader reader)
    {header : Bytes} {t' : StreamDesk} (ho : streamOpening key t = .ok header t') :
    t'.writer = t.writer ∧ t'.engine.Settled ∧ (∃ rest, t'.source.Delivers rest failure) ∧
      ∀ plain, (∃ done, decrypt key reader.unread t.toDesk = .ok plain done) ↔
        t'.engine.whole t'.source.unread = .ok plain := by
  obtain ⟨h, scan, hdecode, -, hkeyed, hsource, hwriter⟩ := streamOpening_eq_ok ho
  rw [ht] at hdecode
  obtain ⟨hfront, hrest, hreplay, taken, hlength, htaken⟩ := Header.taken_of_decode hr hdecode
  obtain ⟨beyond, hunread, -⟩ := hr.unread
  have hread : Header.ofBytes (.fixed key) reader.unread [] = .ok (h, h.length) scan.asked := by
    rw [hunread]
    exact Header.ofBytes_append hfront beyond
  have hleft : scan.source.unread = reader.unread.drop h.length := by
    rw [StreamSource.unread, hreplay, htaken, List.nil_append, List.drop_left' hlength]
  have hform : h.encodeWith key = reader.unread.take h.length :=
    Header.encodeWith_of_ofBytes hread fun _ _ => rfl
  refine ⟨hwriter, Engine.settled_keyFor hkeyed, ⟨_, hsource ▸ hrest⟩, fun plain => ?_⟩
  rw [hform] at hkeyed
  rw [decrypt_of_keyed hread hkeyed, hsource, hleft]

/-- **An opening writes what all that the reader has opens to**, whatever the size of its chunks.
If it fails before its engine is keyed, no byte behind the header was taken. -/
theorem careful_decryptStream (chunkSize : Nat) (hr : reader.Delivers d failure)
    (ht : t.source = .ofReader reader) :
    Careful StreamDesk.ends t.writer failure
      (fun plain => ∃ done, decrypt key reader.unread t.toDesk = .ok plain done)
      (Header.NoneBehind (.fixed key) reader []) (streamOpening key t)
      (decryptStream key chunkSize t) := by
  rw [decryptStream_eq_opening]
  refine Careful.bind ?_ ?_
  · intro e t' hfails
    obtain ⟨hwriter, hsource⟩ := streamOpening_eq_error hfails
    rw [ht] at hsource
    exact ⟨hwriter, Header.noneBehind hr hsource⟩
  · intro header t' hbegun
    obtain ⟨hwriter, hsettled, ⟨rest, hd⟩, hplain⟩ := decrypt_of_opening hr ht hbegun
    have hwrites := Transfer.writes_inward (t := begun t') (chunk_pos chunkSize) hd hsettled header
    rw [← hwriter]
    exact (writes_transferring hwrites).congr fun plain => (hplain plain).symm

end WithKey

/-! ## 5. Both -/

/-- **What a stream call has written is a front of the right answer**, for every suite, every chunk
size, every reader that delivers `d` in any fragmentation and then ends or fails, and every writer.
The right answer is what the call on the whole message gives for all that the reader has, the bytes
behind its failure included.

Nothing that a writer has received is taken back (`Writer.receives_write`, `Transfer.grows_body`),
so that what it held at any point of the call is a front of what it holds at the end; and a writer
that stops at that point is among those quantified over.

The first part is about a sealer, the second about a key in hand.  In opening with a sealer of an
authenticated suite the answers of the resolver have to depend on the name alone: the associated
data is written again, under a key that was asked for once more. -/
theorem streams_write_fronts {reader : Reader} {d : Bytes} {failure : Option TransportError}
    (hr : reader.Delivers d failure) (writer : Writer) :
    (∀ (s : Sealer) (session : Session), 0 < s.config.chunkSize →
      Careful StreamSession.ends writer failure
        (fun c => ∃ after, s.encrypt reader.unread session = .ok c after)
        (fun source => source = .ofReader reader)
        (s.streamSealing { session with source := .ofReader reader, writer })
        (s.encryptStream { session with source := .ofReader reader, writer }) ∧
      ((s.engine.isAead = true → ∃ f, s.resolver = .ofFunction f) →
        Careful StreamSession.ends writer failure
          (fun plain => ∃ done, s.decrypt reader.unread session = .ok plain done)
          (Header.NoneBehind s.resolver reader session.asked)
          (s.streamOpening { session with source := .ofReader reader, writer })
          (s.decryptStream { session with source := .ofReader reader, writer }))) ∧
    ∀ (key : Key) (desk : WithKey.Desk) (chunkSize : Nat),
      Careful WithKey.StreamDesk.ends writer failure
        (fun c => ∃ after, WithKey.encrypt key reader.unread desk = .ok c after)
        (fun source => source = .ofReader reader)
        (WithKey.streamSealing key { desk with source := .ofReader reader, writer })
        (WithKey.encryptStream key chunkSize { desk with source := .ofReader reader, writer }) ∧
      Careful WithKey.StreamDesk.ends writer failure
        (fun plain => ∃ done, WithKey.decrypt key reader.unread desk = .ok plain done)
        (Header.NoneBehind (.fixed key) reader [])
        (WithKey.streamOpening key { desk with source := .ofReader reader, writer })
        (WithKey.decryptStream key chunkSize { desk with source := .ofReader reader, writer }) := by
  constructor
  · intro s session hchunk
    exact ⟨Sealer.careful_encryptStream
        (t := { session with source := .ofReader reader, writer }) hchunk hr rfl,
      Sealer.careful_decryptStream
        (t := { session with source := .ofReader reader, writer }) hchunk hr rfl⟩
  · intro key desk chunkSize
    exact ⟨WithKey.careful_encryptStream
        (t := { desk with source := .ofReader reader, writer }) chunkSize hr rfl,
      WithKey.careful_decryptStream
        (t := { desk with source := .ofReader reader, writer }) chunkSize hr rfl⟩

/-- Five bytes of which the reader hands out three, one at a time, and breaks; and their ciphertext,
opened from a reader that breaks behind all of it.  Both writers hold a front of what they
should. -/
theorem streams_write_fronts_five_bytes :
    ∃ (s : Sealer) (session after done : Session) (c : Bytes) (message ciphertext : Reader),
      s.encrypt [1, 2, 3, 4, 5] session = .ok c after ∧
      s.decrypt c session = .ok [1, 2, 3, 4, 5] done ∧
      message.Delivers [1, 2, 3] (some ⟨.connectionReset, "gone"⟩) ∧
      ciphertext.Delivers c (some ⟨.connectionReset, "gone"⟩) ∧
      (leftBy (s.encryptStream { session with
        source := .ofReader message, writer := .paced {} none })).writer.received <+: c ∧
      (leftBy (s.decryptStream { session with
        source := .ofReader ciphertext, writer := .paced {} none })).writer.received <+:
          [1, 2, 3, 4, 5] := by
  obtain ⟨s, hs⟩ : ∃ s : Sealer, s =
      ⟨{ keyAlias := "k" }, .fixed ⟨Bytes.zeros 16⟩, Suite.engine .aes128CbcPkcs7, 16⟩ := ⟨_, rfl⟩
  obtain ⟨c, after, he⟩ : ∃ c after, s.encrypt [1, 2, 3, 4, 5] ⟨.random 16 [], []⟩ =
      .ok c after := by
    rw [hs]
    exact ⟨_, _, rfl⟩
  have hchunk : 0 < s.config.chunkSize := by rw [hs]; decide
  have hresolver : s.resolver = .ofFunction fun _ => some ⟨Bytes.zeros 16⟩ := by rw [hs]; rfl
  have halias : s.config.keyAlias ≠ "" := by rw [hs]; decide
  obtain ⟨done, hd⟩ := Sealer.decrypt_of_encrypt hresolver hresolver rfl halias rfl he
    ⟨.random 16 [], []⟩
  have hmessage := Reader.delivers_paced_failing [1, 2, 3] [4, 5] [0]
    (by decide : ∀ n ∈ [1], 0 < n) ⟨.connectionReset, "gone"⟩
  have hciphertext := Reader.delivers_paced_failing c [] [2] (by decide : ∀ n ∈ [3], 0 < n)
    ⟨.connectionReset, "gone"⟩
  have hsealing := ((streams_write_fronts hmessage (.paced {} none)).1 s
    ⟨.random 16 [], []⟩ hchunk).1
  have hopening := ((streams_write_fronts hciphertext (.paced {} none)).1 s
    ⟨.random 16 [], []⟩ hchunk).2 (by rw [hs]; simp [Suite.engine, Engine.isAead])
  obtain ⟨front, hfront, hsealed⟩ := hsealing.front c ⟨after, he⟩
  obtain ⟨front', hfront', hopened⟩ := hopening.front [1, 2, 3, 4, 5]
    ⟨done, by rw [List.append_nil]; exact hd⟩
  refine ⟨s, _, after, done, c, _, _, he, hd, hmessage, hciphertext, ?_, ?_⟩
  · exact hsealed ▸ hfront
  · exact hopened ▸ hfront'

end Envelope

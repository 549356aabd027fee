/-
# What one call does with a counted source

A counted source is shared: sealers, engines with a key in hand, whole messages and streams draw
from it in any order, some calls fail before they have drawn and some after it, and a stream may
break when its header is half written.  No two headers that get out may carry the same nonce.

What has to be known of one call is said here (`Spends`).  Either it leaves the counter alone and
lets nothing out, or it moves the counter by one; and if it lets out anything, that begins with the
header that carries the value it has drawn, or is a front of this header.  There is one lemma for
each kind of call.  They all have the same shape, a header that is drawn and then a rest that does
not touch the source, and that is stated once (`spends_bind`).
-/
import Envelope.Proofs.Sealer
import Envelope.Proofs.WithKey

namespace Envelope

/-! ## 1. The source -/

namespace NonceSource

variable {fixedPart : Bytes} {next v v' : Nat}

/-- The nonce that carries a value of the counter. -/
def numbered (fixedPart : Bytes) (v : Nat) : Bytes := fixedPart ++ Bytes.ofNatBE counterWidth v

/-- **A nonce says which value it carries.** -/
theorem numbered_inj (hv : v < counterEnd) (hv' : v' < counterEnd)
    (h : numbered fixedPart v = numbered fixedPart v') : v = v' := by
  have hend : counterEnd < 256 ^ counterWidth := by decide
  have hbytes : Bytes.ofNatBE counterWidth v = Bytes.ofNatBE counterWidth v' :=
    List.append_cancel_left h
  rw [← Bytes.toNatBE_ofNatBE (hv.trans hend), hbytes, Bytes.toNatBE_ofNatBE (hv'.trans hend)]

theorem generate_of_lt (h : next < counterEnd) :
    generate (.counted fixedPart next) =
      .ok (numbered fixedPart next) (.counted fixedPart (next + 1)) := by
  simp only [generate, if_pos h, numbered]

/-- **At its end the counter stays**, and no nonce is handed out. -/
theorem generate_of_le (h : counterEnd ≤ next) :
    generate (.counted fixedPart next) =
      .error (.state .nonceExhausted) (.counted fixedPart next) := by
  simp only [generate, if_neg (Nat.not_lt.mpr h)]

end NonceSource

open NonceSource

/-! ## 2. One call -/

/-- What a call has let out, and whether it has ended well. -/
structure Output where
  bytes : Bytes
  ended : Bool

namespace Output

variable {σ α : Type}

/-- What a call that returns bytes has let out: nothing, if it fails. -/
def returned : EStateM.Result Failure σ Bytes → Output
  | .ok bytes _ => ⟨bytes, true⟩
  | .error _ _ => ⟨[], false⟩

/-- What a call has let out into a writer that had received `before`. -/
def written (received : σ → Bytes) (before : Bytes) : EStateM.Result Failure σ α → Output
  | .ok _ s => ⟨(received s).drop before.length, true⟩
  | .error _ s => ⟨(received s).drop before.length, false⟩

/-- **The output begins with a header**: with all of it; or it is a front of it, and the call has
failed. -/
def Shows (out : Output) (h : Header) : Prop :=
  ∃ key, h.encodeWith key <+: out.bytes ∨ out.ended = false ∧ out.bytes <+: h.encodeWith key

/-- The output begins with a header that carries a value of the counter. -/
def Numbered (fixedPart : Bytes) (v : Nat) (out : Output) : Prop :=
  ∃ h : Header, h.Built ∧ h.nonce = numbered fixedPart v ∧ out.Shows h

end Output

/-- **What one call may do with a counted source**: leave it alone and let nothing out; or draw its
next value, and let out nothing but what begins with the header that carries it. -/
def Spends (fixedPart : Bytes) (next : Nat) (out : Output) (nonces : NonceSource) : Prop :=
  nonces = .counted fixedPart next ∧ out.bytes = [] ∨
    next < counterEnd ∧ nonces = .counted fixedPart (next + 1) ∧
      (out.bytes = [] ∨ out.Numbered fixedPart next)

/-- What making a new header may do with a counted source. -/
def Draws {σ α : Type} (nonces : σ → NonceSource) (header : α → Header) (fixedPart : Bytes)
    (next : Nat) : EStateM.Result Failure σ α → Prop
  | .ok a s => next < counterEnd ∧ nonces s = .counted fixedPart (next + 1) ∧ (header a).Built ∧
      (header a).nonce = numbered fixedPart next
  | .error _ s => nonces s = .counted fixedPart next ∨
      next < counterEnd ∧ nonces s = .counted fixedPart (next + 1)

section

variable {σ α β : Type} {nonces : σ → NonceSource} {header : α → Header} {fixedPart : Bytes}
  {next : Nat}

/-- What a run draws, it draws as a part of a larger one. -/
theorem Draws.within {τ : Type} {nonces' : τ → NonceSource} {result : EStateM.Result Failure σ α}
    (h : Draws nonces header fixedPart next result) (put : σ → τ)
    (hput : ∀ s, nonces' (put s) = nonces s) :
    Draws nonces' header fixedPart next (Envelope.within put result) := by
  cases result with
  | ok a s =>
    obtain ⟨hlt, hnonces, hbuilt, hnonce⟩ := h
    exact ⟨hlt, (hput s).trans hnonces, hbuilt, hnonce⟩
  | error e s =>
    have hsame := hput s
    exact h.imp (fun h => hsame.trans h) fun h => ⟨h.1, hsame.trans h.2⟩

/-- **A call that draws a header and then does something with it**: the rest has to leave the source
alone and to let out the header first. -/
theorem spends_bind {output : EStateM.Result Failure σ β → Output} {x : EStateM Failure σ α}
    {f : α → EStateM Failure σ β} {s : σ} (hdraws : Draws nonces header fixedPart next (x s))
    (hkeeps : ∀ a, Keeps nonces (f a))
    (hnone : ∀ e s', x s = .error e s' → (output (.error e s')).bytes = [])
    (hshows : ∀ a s', x s = .ok a s' → (output (f a s')).Shows (header a)) :
    Spends fixedPart next (output ((x >>= f) s)) (nonces (leftBy ((x >>= f) s))) := by
  cases hx : x s with
  | ok a s' =>
    rw [hx] at hdraws
    obtain ⟨hlt, hnonces, hbuilt, hnonce⟩ := hdraws
    rw [bind_of_ok hx]
    exact Or.inr ⟨hlt, (hkeeps a s').trans hnonces, Or.inr ⟨_, hbuilt, hnonce, hshows a s' hx⟩⟩
  | error e s' =>
    rw [hx] at hdraws
    rw [bind_of_error hx]
    rcases hdraws with hnonces | ⟨hlt, hnonces⟩
    · exact Or.inl ⟨hnonces, hnone e s' hx⟩
    · exact Or.inr ⟨hlt, hnonces, Or.inl (hnone e s' hx)⟩

/-- A call that has failed and let nothing out shows a front of any header. -/
theorem Output.shows_nil {out : Output} (hbytes : out.bytes = []) (hended : out.ended = false)
    (h : Header) : out.Shows h :=
  ⟨⟨[]⟩, Or.inr ⟨hended, by rw [hbytes]; exact List.nil_prefix⟩⟩

/-- **A step that lets nothing out when it fails may come first.** -/
theorem shows_bind {output : EStateM.Result Failure σ β → Output} {x : EStateM Failure σ α}
    {f : α → EStateM Failure σ β} {s : σ} {h : Header}
    (hnone : ∀ e s', x s = .error e s' →
      (output (.error e s')).bytes = [] ∧ (output (.error e s')).ended = false)
    (hshows : ∀ a s', x s = .ok a s' → (output (f a s')).Shows h) :
    (output ((x >>= f) s)).Shows h := by
  cases hx : x s with
  | ok a s' =>
    rw [bind_of_ok hx]
    exact hshows a s' hx
  | error e s' =>
    rw [bind_of_error hx]
    obtain ⟨hbytes, hended⟩ := hnone e s' hx
    exact Output.shows_nil hbytes hended h

/-- A call that returns bytes lets nothing out when a step of it fails. -/
theorem shows_returned_bind {x : EStateM Failure σ α} {f : α → EStateM Failure σ Bytes} {s : σ}
    {h : Header} (hshows : ∀ a s', x s = .ok a s' → (Output.returned (f a s')).Shows h) :
    (Output.returned ((x >>= f) s)).Shows h :=
  shows_bind (fun _ _ _ => ⟨rfl, rfl⟩) hshows

/-- A call that writes lets nothing out when a step fails that has not written. -/
theorem shows_written_bind {received : σ → Bytes} {x : EStateM Failure σ α}
    {f : α → EStateM Failure σ β} {s : σ} {h : Header} {before : Bytes} (hb : received s = before)
    (hnone : ∀ e s', x s = .error e s' → received s' = received s)
    (hshows : ∀ a s', x s = .ok a s' → (Output.written received before (f a s')).Shows h) :
    (Output.written received before ((x >>= f) s)).Shows h := by
  refine shows_bind (fun e s' hx => ⟨?_, rfl⟩) hshows
  rw [Output.written, hnone e s' hx, hb]
  exact List.drop_length

end

/-- **A sealing lets the header out first.** -/
theorem Transfer.shows_outward (h : Header) (key : Key) (size : Nat) (t : Transfer) :
    (Output.written (fun t => t.writer.received) t.writer.received
      (outward (h.encodeWith key) size t)).Shows h := by
  obtain ⟨w, hreceived, hfront⟩ := received_outward (h.encodeWith key) size t
  cases ho : outward (h.encodeWith key) size t with
  | ok _ t' =>
    rw [ho] at hreceived
    obtain hreceived : t'.writer.received = t.writer.received ++ w := hreceived
    rw [Output.written, hreceived, List.drop_left]
    rcases hfront with hfront | ⟨⟨e, _, hfailed⟩, -⟩
    · exact ⟨key, Or.inl hfront⟩
    · rw [ho] at hfailed
      simp at hfailed
  | error e t' =>
    rw [ho] at hreceived
    obtain hreceived : t'.writer.received = t.writer.received ++ w := hreceived
    rw [Output.written, hreceived, List.drop_left]
    exact ⟨key, hfront.imp_right fun hshort => ⟨rfl, hshort.2⟩⟩

/-! ## 3. A sealer -/

/-- Questions are none of the source's business. -/
theorem Session.keeps_asking {α : Type} (call : Asking α) : Keeps nonces (asking call) := by
  intro s
  unfold asking
  cases call s.asked <;> rfl

theorem Session.keeps_result {α γ : Type} {view : Session → γ} (x : Except Failure α) :
    Keeps view (result x) := by
  cases x with
  | ok a => exact Keeps.pure a
  | error e => exact Keeps.throw e

namespace Sealer

variable {fixedPart : Bytes} {next : Nat} (s : Sealer)

/-- **A new header draws the next value.** -/
theorem draws_newHeader {session : Session} (hn : session.nonces = .counted fixedPart next) :
    Draws Session.nonces (fun h => h) fixedPart next (s.newHeader session) := by
  unfold newHeader
  rcases Nat.lt_or_ge next counterEnd with hlt | hge
  · have hnonce : Session.nonce session =
        .ok (numbered fixedPart next) { session with nonces := .counted fixedPart (next + 1) } := by
      unfold Session.nonce
      rw [hn, generate_of_lt hlt]
    rw [bind_of_ok hnonce]
    cases s.config.policy with
    | plain =>
      cases hnew : PlainHeader.new (numbered fixedPart next) (some s.config.keyAlias) with
      | error e => exact Or.inr ⟨hlt, rfl⟩
      | ok p =>
        obtain ⟨rfl, -, -⟩ := PlainHeader.new_eq_ok.mp hnew
        exact ⟨hlt, rfl, hnew, rfl⟩
    | authenticated =>
      cases hnew : AuthenticatedHeader.new (numbered fixedPart next) s.config.keyAlias with
      | error e => exact Or.inr ⟨hlt, rfl⟩
      | ok a =>
        obtain ⟨rfl, -, -⟩ := AuthenticatedHeader.new_eq_ok.mp hnew
        exact ⟨hlt, rfl, hnew, rfl⟩
  · have hnonce : Session.nonce session = .error (.state .nonceExhausted) session := by
      unfold Session.nonce
      rw [hn, generate_of_le hge]
      simp only [← hn]
    rw [bind_of_error hnonce]
    exact Or.inl hn

/-- **Sealing a whole message.** -/
theorem spends_encrypt (plain : Bytes) {session : Session}
    (hn : session.nonces = .counted fixedPart next) :
    Spends fixedPart next (.returned (s.encrypt plain session))
      (leftBy (s.encrypt plain session)).nonces := by
  unfold encrypt
  refine spends_bind (s.draws_newHeader hn) ?_ (fun _ _ _ => rfl) ?_
  · intro h
    refine (Session.keeps_asking _).bind fun key => ?_
    refine (Session.keeps_result _).bind fun engine => ?_
    exact (Session.keeps_result _).bind fun _ => Keeps.pure _
  · intro h session' _
    refine shows_returned_bind fun key _ _ => ?_
    refine shows_returned_bind fun engine _ _ => ?_
    refine shows_returned_bind fun body _ _ => ?_
    exact ⟨key, Or.inl (List.prefix_append _ _)⟩

/-- Opening a whole message leaves the source alone. -/
theorem keeps_decrypt (c : Bytes) : Keeps Session.nonces (s.decrypt c) := by
  unfold decrypt
  refine (Session.keeps_asking _).bind fun found => ?_
  refine (Session.keeps_asking _).bind fun key => ?_
  refine (Session.keeps_result _).bind fun engine => ?_
  exact (Session.keeps_result _).bind fun _ => Keeps.pure _

end Sealer

namespace StreamSession

variable {α : Type} {fixedPart : Bytes} {next : Nat}

/-- What a step within the session keeps, it keeps within a stream. -/
theorem keeps_inSession {call : InSession α} (h : Keeps Session.nonces call) :
    Keeps (fun t => t.nonces) (inSession call) := by
  intro t
  simp only [inSession_eq_within, leftBy_within]
  exact h t.toSession

theorem keeps_scanning (call : Scan StreamSource α) :
    Keeps (fun t => t.nonces) (scanning call) := by
  intro t
  unfold scanning
  cases call ⟨t.source, t.asked⟩ <;> rfl

theorem keeps_transferring (engine : Engine) (stages : StageTimes)
    (call : EStateM Failure Transfer Unit) :
    Keeps (fun t => t.nonces) (transferring engine stages call) := by
  intro t
  unfold transferring
  cases call { engine, source := t.source, writer := t.writer, stages } <;> rfl

/-- What a step within the session draws, it draws within a stream. -/
theorem draws_inSession {call : InSession α} {header : α → Header} {t : StreamSession}
    (h : Draws Session.nonces header fixedPart next (call t.toSession)) :
    Draws (fun t => t.nonces) header fixedPart next (inSession call t) := by
  rw [inSession_eq_within]
  exact h.within _ fun _ => rfl

/-- A step within the session leaves the writer as it was. -/
theorem received_of_error {call : InSession α} {t t' : StreamSession} {e : Failure}
    (h : inSession call t = .error e t') : t'.writer.received = t.writer.received := by
  obtain ⟨_, rfl⟩ := inSession_eq_error h
  rfl

/-- The header is let out first. -/
theorem shows_transferring (engine : Engine) (stages : StageTimes) (h : Header) (key : Key)
    (size : Nat) (t : StreamSession) :
    (Output.written (fun t => t.writer.received) t.writer.received
      ((transferring engine stages (Transfer.outward (h.encodeWith key) size) >>=
        fun done => pure done.1) t)).Shows h := by
  obtain ⟨started, hstarted⟩ : ∃ started : Transfer,
      started = { engine, source := t.source, writer := t.writer, stages } := ⟨_, rfl⟩
  have hwriter : started.writer = t.writer := by rw [hstarted]
  have hshows := Transfer.shows_outward h key size started
  rw [hwriter] at hshows
  cases ho : Transfer.outward (h.encodeWith key) size started with
  | ok _ t' =>
    have hdone : transferring engine stages (Transfer.outward (h.encodeWith key) size) t =
        .ok (t'.summary, t'.engine) { t with source := t'.source, writer := t'.writer } := by
      unfold transferring
      rw [← hstarted, ho]
    rw [ho] at hshows
    rw [bind_of_ok hdone]
    exact hshows
  | error e t' =>
    have hfailed : transferring engine stages (Transfer.outward (h.encodeWith key) size) t =
        .error e { t with source := t'.source, writer := t'.writer } := by
      unfold transferring
      rw [← hstarted, ho]
    rw [ho] at hshows
    rw [bind_of_error hfailed]
    exact hshows

end StreamSession

namespace Sealer

variable {fixedPart : Bytes} {next : Nat} (s : Sealer)

/-- **Sealing a stream.** -/
theorem spends_encryptStream {t : StreamSession} (hn : t.nonces = .counted fixedPart next) :
    Spends fixedPart next
      (.written (fun t => t.writer.received) t.writer.received (s.encryptStream t))
      (leftBy (s.encryptStream t)).nonces := by
  unfold encryptStream
  cases hcheck : s.checkStreams with
  | error e =>
    -- nothing is drawn for a stream that is refused
    exact Or.inl ⟨hn, List.drop_length⟩
  | ok _ =>
    rw [bind_of_ok (rfl : StreamSession.inSession (Session.result (.ok _)) t = .ok _ t)]
    have hdraws : Draws (fun t : StreamSession => t.nonces) (fun h => h) fixedPart next
        (StreamSession.inSession s.newHeader t) :=
      StreamSession.draws_inSession (s.draws_newHeader hn)
    refine spends_bind hdraws ?_ ?_ ?_
    · intro h
      refine (StreamSession.keeps_inSession (Session.keeps_asking _)).bind fun key => ?_
      refine (StreamSession.keeps_inSession (Session.keeps_result _)).bind fun engine => ?_
      exact (StreamSession.keeps_transferring _ _ _).bind fun _ => Keeps.pure _
    · intro e t' h
      rw [Output.written, StreamSession.received_of_error h]
      exact List.drop_length
    · intro h t₁ hdrawn
      obtain ⟨session₁, -, rfl⟩ := StreamSession.inSession_eq_ok hdrawn
      refine shows_written_bind rfl (fun _ _ => StreamSession.received_of_error) ?_
      intro key t₂ hkey
      obtain ⟨session₂, -, rfl⟩ := StreamSession.inSession_eq_ok hkey
      refine shows_written_bind rfl (fun _ _ => StreamSession.received_of_error) ?_
      intro engine t₃ hengine
      obtain ⟨session₃, -, rfl⟩ := StreamSession.inSession_eq_ok hengine
      exact StreamSession.shows_transferring engine stagesBefore h key s.config.chunkSize
        { t with toSession := session₃ }

/-- Opening a stream leaves the source alone. -/
theorem keeps_decryptStream : Keeps (fun t => t.nonces) s.decryptStream := by
  unfold decryptStream
  refine (StreamSession.keeps_inSession (Session.keeps_result _)).bind fun _ => ?_
  refine (StreamSession.keeps_scanning _).bind fun h => ?_
  refine (StreamSession.keeps_inSession (Session.keeps_asking _)).bind fun key => ?_
  refine (StreamSession.keeps_inSession (Session.keeps_result _)).bind fun engine => ?_
  exact (StreamSession.keeps_transferring _ _ _).bind fun _ => Keeps.pure _

end Sealer

/-! ## 4. A key in hand -/

namespace WithKey

variable {α : Type} {fixedPart : Bytes} {next : Nat}

theorem keeps_onEngine (call : EStateM Failure Engine α) : Keeps Desk.nonces (onEngine call) := by
  intro d
  unfold onEngine
  cases call d.engine <;> rfl

/-- **A new header draws the next value.** -/
theorem draws_newHeader {d : Desk} (hn : d.nonces = .counted fixedPart next) :
    Draws Desk.nonces Header.plain fixedPart next (newHeader d) := by
  unfold newHeader
  rw [hn]
  rcases Nat.lt_or_ge next counterEnd with hlt | hge
  · rw [generate_of_lt hlt]
    simp only
    cases hnew : PlainHeader.new (numbered fixedPart next) none with
    | error e => exact Or.inr ⟨hlt, rfl⟩
    | ok p =>
      obtain ⟨rfl, -, -⟩ := PlainHeader.new_eq_ok.mp hnew
      exact ⟨hlt, rfl, hnew, rfl⟩
  · rw [generate_of_le hge]
    exact Or.inl rfl

/-- **Sealing a whole message.** -/
theorem spends_encrypt (key : Key) (plain : Bytes) {d : Desk}
    (hn : d.nonces = .counted fixedPart next) :
    Spends fixedPart next (.returned (encrypt key plain d))
      (leftBy (encrypt key plain d)).nonces := by
  unfold encrypt
  refine spends_bind (draws_newHeader hn) ?_ (fun _ _ _ => rfl) ?_
  · intro h
    refine (keeps_onEngine _).bind fun _ => ?_
    exact (keeps_onEngine _).bind fun _ => Keeps.pure _
  · intro h d₁ _
    refine shows_returned_bind fun _ _ _ => ?_
    refine shows_returned_bind fun body _ _ => ?_
    exact ⟨key, Or.inl (List.prefix_append _ _)⟩

/-- Opening a whole message leaves the source alone. -/
theorem keeps_decrypt (key : Key) (c : Bytes) : Keeps Desk.nonces (decrypt key c) := by
  rw [decrypt_eq]
  refine Keeps.bind ?_ fun found => ?_
  · unfold header
    cases Header.ofBytes (.fixed key) c [] with
    | ok found _ => exact Keeps.pure _
    | error e _ => exact Keeps.throw _
  · exact (keeps_onEngine _).bind fun _ => keeps_onEngine _

/-- What a step keeps at a desk, it keeps beside a stream. -/
theorem keeps_atDesk {call : AtDesk α} (h : Keeps Desk.nonces call) :
    Keeps (fun t => t.nonces) (atDesk call) := by
  intro t
  simp only [atDesk_eq_within, leftBy_within]
  exact h t.toDesk

theorem keeps_checkStreams : Keeps Desk.nonces checkStreams := by
  intro d
  unfold checkStreams
  split <;> rfl

theorem keeps_readHeader (key : Key) : Keeps (fun t => t.nonces) (readHeader key) := by
  intro t
  unfold readHeader
  cases Header.decode (.fixed key) ⟨t.source, []⟩ <;> rfl

theorem keeps_transferring (call : EStateM Failure Transfer Unit) :
    Keeps (fun t => t.nonces) (transferring call) := by
  intro t
  rw [transferring_eq]
  cases call (begun t) <;> rfl

/-- What a step draws at a desk, it draws beside a stream. -/
theorem draws_atDesk {call : AtDesk α} {header : α → Header} {t : StreamDesk}
    (h : Draws Desk.nonces header fixedPart next (call t.toDesk)) :
    Draws (fun t => t.nonces) header fixedPart next (atDesk call t) := by
  rw [atDesk_eq_within]
  exact h.within _ fun _ => rfl

/-- A step at the desk leaves the writer as it was. -/
theorem received_of_error {call : AtDesk α} {t t' : StreamDesk} {e : Failure}
    (h : atDesk call t = .error e t') : t'.writer.received = t.writer.received := by
  obtain ⟨_, rfl⟩ := atDesk_eq_error h
  rfl

/-- The header is let out first. -/
theorem shows_transferring (h : Header) (key : Key) (size : Nat) (t : StreamDesk) :
    (Output.written (fun t => t.writer.received) t.writer.received
      (transferring (Transfer.outward (h.encodeWith key) size) t)).Shows h := by
  have hshows := Transfer.shows_outward h key size (begun t)
  rw [transferring_eq]
  cases ho : Transfer.outward (h.encodeWith key) size (begun t) with
  | ok _ t' =>
    rw [ho] at hshows
    exact hshows
  | error e t' =>
    rw [ho] at hshows
    exact hshows

/-- **Sealing a stream.** -/
theorem spends_encryptStream (key : Key) (chunkSize : Nat) {t : StreamDesk}
    (hn : t.nonces = .counted fixedPart next) :
    Spends fixedPart next
      (.written (fun t => t.writer.received) t.writer.received (encryptStream key chunkSize t))
      (leftBy (encryptStream key chunkSize t)).nonces := by
  unfold encryptStream
  by_cases hs : t.engine.streams = true
  · rw [bind_of_ok (checkStreams_eq_ok hs)]
    have hdraws : Draws (fun t : StreamDesk => t.nonces) Header.plain fixedPart next
        (atDesk newHeader t) :=
      draws_atDesk (draws_newHeader hn)
    refine spends_bind hdraws ?_ ?_ ?_
    · intro h
      exact (keeps_atDesk (keeps_onEngine _)).bind fun _ => keeps_transferring _
    · intro e t' h
      rw [Output.written, received_of_error h]
      exact List.drop_length
    · intro h t₁ hdrawn
      obtain ⟨d₁, -, rfl⟩ := atDesk_eq_ok hdrawn
      refine shows_written_bind rfl (fun _ _ => received_of_error) ?_
      intro _ t₂ hkeyed
      obtain ⟨d₂, -, rfl⟩ := atDesk_eq_ok hkeyed
      exact shows_transferring (.plain h) key (max chunkSize 1) { t with toDesk := d₂ }
  · -- nothing is drawn for a stream that is refused
    have hrefused : atDesk checkStreams t =
        .error (.unsupported (.cannotStream t.engine.algorithm)) t := by
      unfold atDesk checkStreams
      rw [if_neg hs]
    rw [bind_of_error hrefused]
    exact Or.inl ⟨hn, List.drop_length⟩

/-- Opening a stream leaves the source alone. -/
theorem keeps_decryptStream (key : Key) (chunkSize : Nat) :
    Keeps (fun t => t.nonces) (decryptStream key chunkSize) := by
  unfold decryptStream
  refine (keeps_atDesk keeps_checkStreams).bind fun _ => ?_
  refine (keeps_readHeader key).bind fun h => ?_
  exact (keeps_atDesk (keeps_onEngine _)).bind fun _ => keeps_transferring _

end WithKey

end Envelope

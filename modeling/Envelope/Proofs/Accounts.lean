/-
# Every byte of a stream is accounted for

A stream call that succeeds reports counts, and whoever monitors it has nothing else to go by.  This
module compares them with what really went through: the bytes the reader has handed out, the bytes
the writer has received, and the header among them (`streams_account`).  It is said for every reader
that delivers some bytes, in any fragmentation, for every writer, in any portions, and for every
size of the chunks; nothing of this can be seen in the counts but the size, in the number of chunks.

* Sealing, the header and the body that were counted are what the writer has received.  The length
  of the body depends on that of the message alone: a tag is added, or padding (`length_whole`).
* Opening, the header is not counted as it is read, but written again and measured.  It is as long
  as the header that was read, so header and body together are what the reader has handed out.
-/
import Envelope.Proofs.Engine.Standard
import Envelope.Proofs.Fronts
import Envelope.Proofs.Header.PrefixFree
import Envelope.Proofs.Header.Taken
import Envelope.Proofs.Interchange
import Envelope.Proofs.Transfer.Accounts

namespace Envelope

/-! ## 1. How long a sealed body is -/

/-- **Sealing adds a tag, or fills the last block**, which is a whole one if there is nothing to be
filled. -/
theorem Engine.length_whole {e keyed : Engine} {key : Key} {nonce header m body : Bytes}
    (hk : keyFor .encrypt key nonce header e = .ok () keyed) (hw : keyed.whole m = .ok body) :
    body.length = if e.isAead then m.length + 16 else 16 * (m.length / 16 + 1) := by
  obtain ⟨cipher, state⟩ | ⟨width, state⟩ := e
  · obtain ⟨-, -, rfl⟩ := keyFor_aead.mp hk
    rw [whole_aead] at hw
    unfold Aead.State.transform at hw
    simp only [List.nil_append] at hw
    cases hseal : (cipher.keyed key.bytes nonce header).seal? m with
    | none => simp [hseal] at hw
    | some sealed =>
      rw [hseal] at hw
      obtain rfl := Except.ok.inj hw
      exact (Aead.Keyed.open?_seal? (cipher.masks_keyed key.bytes nonce header) hseal).1
  · obtain ⟨-, -, rfl⟩ := keyFor_cbc.mp hk
    obtain ⟨ps, cs, -, -, hcomes, hlength⟩ :=
      (Cbc.standard_of_nil width (Aes.expandKey key.bytes) (.ofBytes nonce)).enciphers m
    rw [comesTo_iff (settled_keyFor hk), hw] at hcomes
    rw [Except.ok.inj hcomes]
    exact hlength

/-! ## 2. The books -/

namespace Counts

/-- **The body is counted**, and the pieces of one size that it makes. -/
structure OfBody (size : Nat) (body : Bytes) (c : Counts) : Prop where
  bytesIn : c.bytesIn = body.length
  chunks : c.chunks = body.length ⌈/⌉ size

/-- **A sealing of `m` with an engine is accounted for**, from a reader and a writer as they were
before it to what `ends` has become of them. -/
structure OfSealing (e : Engine) (size : Nat) (m : Bytes) (reader : Reader) (before : Writer)
    (ends : StreamSource × Writer) (c : Counts) : Prop extends OfBody size m c where
  /-- What the reader has handed out is the message. -/
  delivered : ends.1.reader.delivered = reader.delivered + c.bytesIn
  /-- What the writer has received is a header and a body, and the header is counted. -/
  header : ∃ (h : Header) (key : Key) (body : Bytes), h.Built ∧ c.bytesHeader = h.length ∧
    ends.2.received = before.received ++ (h.encodeWith key ++ body)
  /-- Header and body together are what the writer has received. -/
  received : ends.2.received.length = before.received.length + (c.bytesHeader + c.bytesOut)
  /-- The body is the message with a tag, or with its padding. -/
  bytesOut : c.bytesOut = if e.isAead then m.length + 16 else 16 * (m.length / 16 + 1)

/-- **An opening of the message in `d` is accounted for.** -/
structure OfOpening (r : Resolver) (asked : List String) (size : Nat) (d : Bytes) (reader : Reader)
    (before : Writer) (ends : StreamSource × Writer) (c : Counts) : Prop extends
    OfBody size (d.drop c.bytesHeader) c where
  /-- The header that is counted is the header of these bytes; the body is what is behind it. -/
  header : ∃ h asked', Header.ofBytes r d asked = .ok (h, c.bytesHeader) asked' ∧
    c.bytesHeader = h.length
  /-- Header and body together are what the reader has handed out. -/
  delivered : ends.1.reader.delivered = reader.delivered + (c.bytesHeader + c.bytesIn)
  /-- What is counted as written is what the writer has received. -/
  received : ends.2.received.length = before.received.length + c.bytesOut

/-- **What a sealing counts as written, an opening of it counts as read**, whatever key it finds for
the header, and in chunks of any size. -/
theorem OfOpening.mirrors {e : Engine} {r : Resolver} {asked : List String} {size size' : Nat}
    {m c : Bytes} {reader reader' : Reader} {before before' : Writer}
    {ends ends' : StreamSource × Writer} {sealed opened : Counts}
    (ho : opened.OfOpening r asked size' c reader' before' ends')
    (hs : sealed.OfSealing e size m reader before ends)
    (hc : ends.2.received = before.received ++ c) :
    opened.bytesHeader = sealed.bytesHeader ∧ opened.bytesIn = sealed.bytesOut := by
  obtain ⟨h, key, body, hbuilt, hlength, hreceived⟩ := hs.header
  obtain ⟨g, _, hread, hlength'⟩ := ho.header
  have hform : c = h.encodeWith key ++ body := List.append_cancel_left (hc.symm.trans hreceived)
  -- both headers stand at the beginning of the same bytes
  obtain ⟨-, hbuilt', hspells⟩ := Header.ofBytes_eq_ok hread
  obtain ⟨key', hkey'⟩ := hspells.exists_encodeWith
  have hfront : h.encodeWith key <+: c := ⟨body, hform.symm⟩
  have hfront' : g.encodeWith key' <+: c := hkey' ▸ List.take_prefix _ c
  have hsame := (Header.agrees_of_prefix hbuilt hbuilt' hfront hfront').2.length
  have hheader : opened.bytesHeader = sealed.bytesHeader := by rw [hlength', hsame, hlength]
  refine ⟨hheader, ?_⟩
  have hall := hs.received
  rw [hc, List.length_append] at hall
  rw [ho.bytesIn, List.length_drop]
  omega

end Counts

namespace Transfer

variable {t t' : Transfer} {reader : Reader} {d : Bytes} {failure : Option TransportError}
  {size : Nat}

/-- **A sealing that came through is accounted for**, if nothing was counted before. -/
theorem ofSealing_outward (hcounts : t.counts = {}) (hr : reader.Delivers d failure)
    (hsource : t.source = .ofReader reader) (hsize : 0 < size) {h : Header} (hb : h.Built)
    {key : Key} {e : Engine}
    (hk : Engine.keyFor .encrypt key h.nonce (h.encodeWith key) e = .ok () t.engine)
    (hrun : outward (h.encodeWith key) size t = .ok () t') :
    t'.counts.OfSealing e size d reader t.writer (ends t') := by
  obtain ⟨_, _, hwriter, hrun⟩ := bind_eq_ok.mp hrun
  obtain ⟨writer, hwritten, rfl⟩ := onWriter_eq_ok hwriter
  have hheader := Writer.received_of_writeAll hwritten
  obtain ⟨t₁, ht₁⟩ : ∃ t₁ : Transfer, t₁ =
      { ({ t with writer } : Transfer).enter .write with
        counts := t.counts.addHeader (h.encodeWith key).length } := ⟨_, rfl⟩
  have hbody : body size t₁ = .ok () t' := by rw [ht₁]; exact hrun
  have hengine : t₁.engine = t.engine := by rw [ht₁]; rfl
  have hsource₁ : t₁.source = .ofReader reader := by rw [ht₁]; exact hsource
  have hwriter₁ : t₁.writer = writer := by rw [ht₁]; rfl
  have hd : t₁.source.Delivers d failure := by
    rw [hsource₁]
    exact StreamSource.delivers_ofReader hr
  obtain ⟨out, hwhole, hbooked⟩ := booked_body hsize hd (by rw [hsource₁]; rfl)
    (by rw [hengine]; exact Engine.settled_keyFor hk) hbody
  have hcounted : t'.counts = ⟨d.length ⌈/⌉ size, h.length, d.length, out.length⟩ :=
    hbooked.counts_eq (by simp [ht₁, hcounts])
  have hread := hbooked.read.delivered
  have hreceived : t'.writer.received = t.writer.received ++ (h.encodeWith key ++ out) := by
    rw [hbooked.written, hwriter₁, hheader, List.append_assoc]
  rw [hsource₁] at hread
  rw [hengine] at hwhole
  rw [hcounted]
  refine ⟨⟨rfl, rfl⟩, hread, ⟨h, key, out, hb, rfl, hreceived⟩, ?_, Engine.length_whole hk hwhole⟩
  show t'.writer.received.length = t.writer.received.length + (h.length + out.length)
  simp [hreceived]

/-- **An opening that came through is accounted for**, if nothing was counted before and the stream
stands behind the header. -/
theorem ofOpening_inward (hcounts : t.counts = {}) (hr : reader.Delivers d failure)
    (hsize : 0 < size) {r : Resolver} {asked : List String} {h : Header}
    {scan : ScanState StreamSource}
    (hdecode : Header.decode r ⟨.ofReader reader, asked⟩ = .ok h scan)
    (hsource : t.source = scan.source) (key : Key) (he : t.engine.Settled)
    (hrun : inward (h.encodeWith key) size t = .ok () t') :
    t'.counts.OfOpening r asked size d reader t.writer (ends t') := by
  obtain ⟨hread, hrest, -⟩ := Header.taken_of_decode hr hdecode
  obtain ⟨hqueue, taken, htaken, hhanded⟩ := Header.handsOut_of_decode hdecode
  rw [← hsource] at hrest hqueue hhanded
  obtain ⟨t₁, ht₁⟩ : ∃ t₁ : Transfer, t₁ =
      { t with counts := t.counts.addHeader (h.encodeWith key).length } := ⟨_, rfl⟩
  have hbody : body size t₁ = .ok () t' := by rw [ht₁]; exact hrun
  have hsource₁ : t₁.source = t.source := by rw [ht₁]
  have hwriter₁ : t₁.writer = t.writer := by rw [ht₁]
  obtain ⟨out, -, hbooked⟩ := booked_body hsize (by rw [hsource₁]; exact hrest)
    (by rw [hsource₁]; exact hqueue) (by rw [ht₁]; exact he) hbody
  have hcounted : t'.counts =
      ⟨(d.drop h.length).length ⌈/⌉ size, h.length, (d.drop h.length).length, out.length⟩ :=
    hbooked.counts_eq (by simp [ht₁, hcounts])
  -- the header was handed out first, and then the body
  have hall := (hhanded.trans (hsource₁ ▸ hbooked.read)).delivered
  rw [List.length_append, htaken] at hall
  have hreceived := congrArg List.length hbooked.written
  rw [hwriter₁, List.length_append] at hreceived
  rw [hcounted]
  exact ⟨⟨rfl, rfl⟩, ⟨h, _, hread, rfl⟩, hall, hreceived⟩

end Transfer

/-! ## 3. The four calls -/

/-- A stream that comes through reports the counts of its transfer. -/
theorem StreamSession.transferring_eq_ok {engine : Engine} {stages : StageTimes}
    {call : EStateM Failure Transfer Unit} {t t' : StreamSession} {summary : Summary}
    (h : (transferring engine stages call >>= fun out => pure out.1) t = .ok summary t') :
    ∃ t₁, call { engine, source := t.source, writer := t.writer, stages } = .ok () t₁ ∧
      summary.counts = t₁.counts ∧ t'.ends = t₁.ends := by
  obtain ⟨out, t₂, htransfer, h⟩ := bind_eq_ok.mp h
  obtain ⟨rfl, rfl⟩ := EStateM.Result.ok.inj h
  unfold transferring at htransfer
  cases hc : call { engine, source := t.source, writer := t.writer, stages } with
  | error e t₁ => simp [hc] at htransfer
  | ok _ t₁ =>
    rw [hc] at htransfer
    obtain ⟨rfl, rfl⟩ := EStateM.Result.ok.inj htransfer
    exact ⟨t₁, rfl, rfl, rfl⟩

namespace Sealer

variable {s : Sealer} {t t' : StreamSession} {reader : Reader} {d : Bytes}
  {failure : Option TransportError} {summary : Summary}

/-- **A stream that was sealed is accounted for.** -/
theorem ofSealing_encryptStream (hchunk : 0 < s.config.chunkSize) (hr : reader.Delivers d failure)
    (ht : t.source = .ofReader reader) (h : s.encryptStream t = .ok summary t') :
    summary.counts.OfSealing s.engine s.config.chunkSize d reader t.writer t'.ends := by
  rw [encryptStream_eq_sealing] at h
  obtain ⟨begun, t₁, hbegun, h⟩ := bind_eq_ok.mp h
  obtain ⟨session, hcall, rfl⟩ := StreamSession.inSession_eq_ok hbegun
  obtain ⟨_, _, -, hsealing⟩ := bind_eq_ok.mp hcall
  obtain ⟨header, key, hbuilt, hheader, hkeyed⟩ := sealing_eq_ok hsealing
  obtain ⟨t₂, hrun, hcounts, hends⟩ := StreamSession.transferring_eq_ok h
  rw [hheader] at hrun
  rw [hcounts, hends]
  exact Transfer.ofSealing_outward rfl hr ht hchunk hbuilt hkeyed hrun

/-- **A stream that was opened is accounted for.** -/
theorem ofOpening_decryptStream (hchunk : 0 < s.config.chunkSize) (hr : reader.Delivers d failure)
    (ht : t.source = .ofReader reader) (h : s.decryptStream t = .ok summary t') :
    summary.counts.OfOpening s.resolver t.asked s.config.chunkSize d reader t.writer t'.ends := by
  rw [decryptStream_eq_opening] at h
  obtain ⟨begun, t₁, hbegun, h⟩ := bind_eq_ok.mp h
  obtain ⟨header, scan, key, asked, hdecode, -, hheader, hkeyed, rfl⟩ := streamOpening_eq_ok hbegun
  obtain ⟨t₂, hrun, hcounts, hends⟩ := StreamSession.transferring_eq_ok h
  rw [ht] at hdecode
  rw [hheader] at hrun
  rw [hcounts, hends]
  exact Transfer.ofOpening_inward rfl hr hchunk hdecode rfl key (Engine.settled_keyFor hkeyed) hrun

end Sealer

namespace WithKey

variable {key : Key} {t t' : StreamDesk} {reader : Reader} {d : Bytes}
  {failure : Option TransportError} {summary : Summary}

/-- A stream that comes through reports the counts of its transfer. -/
theorem transferring_eq_ok {call : EStateM Failure Transfer Unit}
    (h : transferring call t = .ok summary t') :
    ∃ t₁, call (begun t) = .ok () t₁ ∧ summary.counts = t₁.counts ∧ t'.ends = t₁.ends := by
  rw [transferring_eq] at h
  cases hc : call (begun t) with
  | error e t₁ => simp [hc] at h
  | ok _ t₁ =>
    rw [hc] at h
    obtain ⟨rfl, rfl⟩ := EStateM.Result.ok.inj h
    exact ⟨t₁, rfl, rfl, rfl⟩

/-- **A stream that was sealed is accounted for.** -/
theorem ofSealing_encryptStream (chunkSize : Nat) (hr : reader.Delivers d failure)
    (ht : t.source = .ofReader reader) (h : encryptStream key chunkSize t = .ok summary t') :
    summary.counts.OfSealing t.engine (max chunkSize 1) d reader t.writer t'.ends := by
  rw [encryptStream_eq_sealing] at h
  obtain ⟨header, t₁, hbegun, h⟩ := bind_eq_ok.mp h
  obtain ⟨desk, hcall, rfl⟩ := atDesk_eq_ok hbegun
  obtain ⟨_, _, hcheck, hsealing⟩ := bind_eq_ok.mp hcall
  obtain rfl := eq_of_checkStreams hcheck
  obtain ⟨plain, hbuilt, rfl, hkeyed⟩ := sealing_eq_ok hsealing
  obtain ⟨t₂, hrun, hcounts, hends⟩ := transferring_eq_ok h
  -- a plain header is written without the key
  have hkeyed : Engine.keyFor .encrypt key plain.nonce (Header.encodeWith key (.plain plain))
      t.engine = .ok () desk.engine := hkeyed
  rw [hcounts, hends]
  exact Transfer.ofSealing_outward (t := begun { t with toDesk := desk }) rfl hr ht
    (chunk_pos chunkSize) hbuilt hkeyed hrun

/-- **A stream that was opened is accounted for.** -/
theorem ofOpening_decryptStream (chunkSize : Nat) (hr : reader.Delivers d failure)
    (ht : t.source = .ofReader reader) (h : decryptStream key chunkSize t = .ok summary t') :
    summary.counts.OfOpening (.fixed key) [] (max chunkSize 1) d reader t.writer t'.ends := by
  rw [decryptStream_eq_opening] at h
  obtain ⟨_, t₁, hbegun, h⟩ := bind_eq_ok.mp h
  obtain ⟨header, scan, hdecode, rfl, hkeyed, hsource, hwriter⟩ := streamOpening_eq_ok hbegun
  obtain ⟨t₂, hrun, hcounts, hends⟩ := transferring_eq_ok h
  rw [ht] at hdecode
  rw [hcounts, hends, ← hwriter]
  exact Transfer.ofOpening_inward rfl hr (chunk_pos chunkSize) hdecode hsource key
    (Engine.settled_keyFor hkeyed) hrun

end WithKey

/-- **The counts of every stream that came through account for every byte**, for every suite, every
size of the chunks, every reader that delivers `d` in any fragmentation, and every writer.  The
first part is about a sealer, the second about a key in hand, where no chunk is smaller than one
byte. -/
theorem streams_account {reader : Reader} {d : Bytes} {failure : Option TransportError}
    (hr : reader.Delivers d failure) (writer : Writer) :
    (∀ (s : Sealer) (session : Session), 0 < s.config.chunkSize →
      (∀ summary after,
        s.encryptStream { session with source := .ofReader reader, writer } = .ok summary after →
          summary.counts.OfSealing s.engine s.config.chunkSize d reader writer after.ends) ∧
      ∀ summary after,
        s.decryptStream { session with source := .ofReader reader, writer } = .ok summary after →
          summary.counts.OfOpening s.resolver session.asked s.config.chunkSize d reader writer
            after.ends) ∧
    ∀ (key : Key) (desk : WithKey.Desk) (chunkSize : Nat),
      (∀ summary after,
        WithKey.encryptStream key chunkSize { desk with source := .ofReader reader, writer } =
          .ok summary after →
            summary.counts.OfSealing desk.engine (max chunkSize 1) d reader writer after.ends) ∧
      ∀ summary after,
        WithKey.decryptStream key chunkSize { desk with source := .ofReader reader, writer } =
          .ok summary after →
            summary.counts.OfOpening (.fixed key) [] (max chunkSize 1) d reader writer
              after.ends := by
  constructor
  · intro s session hchunk
    constructor
    · intro summary after h
      exact Sealer.ofSealing_encryptStream hchunk hr rfl h
    · intro summary after h
      exact Sealer.ofOpening_decryptStream hchunk hr rfl h
  · intro key desk chunkSize
    constructor
    · intro summary after h
      exact WithKey.ofSealing_encryptStream chunkSize hr rfl h
    · intro summary after h
      exact WithKey.ofOpening_decryptStream chunkSize hr rfl h

/-- Five bytes sealed in chunks of two, from a reader that hands out one at a time and is
interrupted once, and opened again from one that hands out seven: three chunks, and then eight. -/
theorem streams_account_five_bytes :
    ∃ (s : Sealer) (session : Session) (c : Bytes) (sealed opened : Summary)
      (after done : StreamSession) (n : Nat),
      s.encryptStream { session with
        source := .ofReader (.paced [1, 2, 3, 4, 5] { sizes := [1] } [2])
        writer := .paced { sizes := [3] } none } = .ok sealed after ∧
      after.writer.received = c ∧ sealed.counts = ⟨3, n, 5, 16⟩ ∧
      s.decryptStream { session with
        source := .ofReader (.paced c { sizes := [7] } [])
        writer := .paced { sizes := [1] } none } = .ok opened done ∧
      done.writer.received = [1, 2, 3, 4, 5] ∧ opened.counts = ⟨8, n, 16, 5⟩ := by
  obtain ⟨s, hs⟩ : ∃ s : Sealer, s =
      ⟨{ keyAlias := "k", chunkSize := 2 }, .fixed ⟨Bytes.zeros 16⟩,
        Suite.engine .aes128CbcPkcs7, 16⟩ := ⟨_, rfl⟩
  have hchunk : s.config.chunkSize = 2 := by rw [hs]
  have hpos : 0 < s.config.chunkSize := by rw [hchunk]; decide
  have haead : s.engine.isAead = false := by rw [hs]; rfl
  have hstreams : s.engine.streams = true := by rw [hs]; rfl
  have hresolver : s.resolver = .ofFunction fun _ => some ⟨Bytes.zeros 16⟩ := by rw [hs]; rfl
  have halias : s.config.keyAlias ≠ "" := by rw [hs]; decide
  -- the whole message, there and back
  obtain ⟨session, hsession⟩ : ∃ session : Session, session = ⟨.random 16 [], []⟩ := ⟨_, rfl⟩
  obtain ⟨c, _, he⟩ : ∃ c after, s.encrypt [1, 2, 3, 4, 5] session = .ok c after := by
    rw [hs, hsession]
    exact ⟨_, _, rfl⟩
  obtain ⟨_, hd⟩ := Sealer.decrypt_of_encrypt hresolver hresolver rfl halias rfl he session
  -- the streams
  have hmessage := Reader.delivers_paced [1, 2, 3, 4, 5] [2] (by decide : ∀ n ∈ [1], 0 < n)
  have hciphertext := Reader.delivers_paced c [] (by decide : ∀ n ∈ [7], 0 < n)
  have hsealing := Sealer.alike_encrypt (s := s) (t := { session with
    source := .ofReader (.paced [1, 2, 3, 4, 5] { sizes := [1] } [2])
    writer := .paced { sizes := [3] } none }) hstreams hpos hmessage rfl
    (Writer.accepting_paced (by decide))
  have hopening := Sealer.alike_decrypt (s := s) (t := { session with
    source := .ofReader (.paced c { sizes := [7] } [])
    writer := .paced { sizes := [1] } none }) hresolver hstreams hpos hciphertext rfl
    (Writer.accepting_paced (by decide))
  rw [he] at hsealing
  rw [hd] at hopening
  obtain ⟨sealed, after, hsealed, hwritten, -⟩ := hsealing.of_ok
  obtain ⟨opened, done, hopened, hback, -⟩ := hopening.of_ok
  have hback : done.writer.received = [1, 2, 3, 4, 5] := hback
  -- their books
  have hbooks := ((streams_account hmessage _).1 s session hpos).1 _ _ hsealed
  have hbooks' := ((streams_account hciphertext _).1 s session hpos).2 _ _ hopened
  obtain ⟨hheader, hmirrored⟩ := hbooks'.mirrors hbooks hwritten
  have hin : sealed.counts.bytesIn = 5 := hbooks.bytesIn
  have hout : sealed.counts.bytesOut = 16 := by
    rw [hbooks.bytesOut, haead]
    rfl
  have hchunks : sealed.counts.chunks = 3 := by
    rw [hbooks.chunks, hchunk]
    rfl
  have hin' : opened.counts.bytesIn = 16 := hmirrored.trans hout
  have hout' : opened.counts.bytesOut = 5 := by
    have hall : done.writer.received.length = 0 + opened.counts.bytesOut := hbooks'.received
    rw [hback, Nat.zero_add] at hall
    exact hall.symm
  have hchunks' : opened.counts.chunks = 8 := by
    rw [hbooks'.chunks, ← hbooks'.bytesIn, hin', hchunk]
    rfl
  refine ⟨s, session, c, sealed, opened, after, done, sealed.counts.bytesHeader, hsealed, hwritten,
    ?_, hopened, hback, ?_⟩
  · rw [← hchunks, ← hin, ← hout]
  · rw [← hheader, ← hchunks', ← hin', ← hout']

end Envelope

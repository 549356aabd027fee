/-
# Streams with a key in hand

Where the key is at hand the comparison is the same as for a sealer, step by step, with two
differences.  The engine is the caller's, in whatever state an earlier message left it; keying it is
the step after which nothing of that state is left (`settled_keyFor`).  And a chunk size of zero
counts as one, so that no condition on it is needed.
-/
import Envelope.Proofs.Header
import Envelope.Proofs.Transfer
import Envelope.WithKey

namespace Envelope.WithKey

/-! ## 1. Steps at a desk -/

namespace StreamDesk

/-- **A stream that came to what the whole message comes to**: the writer has received it behind
what it had before, and the desk is the same. -/
def Received (before out : Bytes) (_ : Summary) (d : Desk) (t : StreamDesk) : Prop :=
  t.writer.received = before ++ out ∧ t.toDesk = d

/-- A stream that failed as the whole message does, with the same desk. -/
def FailedSame (e e' : Failure) (d : Desk) (t : StreamDesk) : Prop :=
  e' = e ∧ t.toDesk = d

end StreamDesk

open StreamDesk

variable {α : Type} {t : StreamDesk}

/-- A step that does not touch the stream is the same step. -/
theorem alike_atDesk (call : AtDesk α) :
    Alike (fun a b d' t' => b = a ∧ call t.toDesk = .ok a d' ∧ t' = { t with toDesk := d' })
      FailedSame (call t.toDesk) (atDesk call t) := by
  unfold atDesk
  cases h : call t.toDesk with
  | ok a d => exact ⟨rfl, rfl, rfl⟩
  | error e d => exact ⟨rfl, rfl⟩

/-- A step at the desk is a run on a part of what belongs to the stream. -/
theorem atDesk_eq_within (call : AtDesk α) (t : StreamDesk) :
    atDesk call t = within (fun d => { t with toDesk := d }) (call t.toDesk) := by
  unfold atDesk
  cases call t.toDesk <;> rfl

/-- A step that does not touch the stream leaves its ends alone when it ends well. -/
theorem atDesk_eq_ok {call : AtDesk α} {a : α} {t' : StreamDesk} (h : atDesk call t = .ok a t') :
    ∃ desk, call t.toDesk = .ok a desk ∧ t' = { t with toDesk := desk } := by
  unfold atDesk at h
  cases hc : call t.toDesk with
  | error e desk => rw [hc] at h; simp at h
  | ok b desk =>
    rw [hc] at h
    obtain ⟨rfl, rfl⟩ := EStateM.Result.ok.inj h
    exact ⟨desk, rfl, rfl⟩

/-- It does so when it fails, too. -/
theorem atDesk_eq_error {call : AtDesk α} {e : Failure} {t' : StreamDesk}
    (h : atDesk call t = .error e t') : ∃ desk, t' = { t with toDesk := desk } := by
  unfold atDesk at h
  cases hc : call t.toDesk with
  | ok b desk => rw [hc] at h; simp at h
  | error err desk =>
    rw [hc] at h
    obtain ⟨-, rfl⟩ := EStateM.Result.error.inj h
    exact ⟨desk, rfl⟩

/-- Reading a header moves the source and nothing else. -/
theorem readHeader_eq_ok {key : Key} {h : Header} {t' : StreamDesk}
    (hh : readHeader key t = .ok h t') :
    ∃ scan, Header.decode (.fixed key) ⟨t.source, []⟩ = .ok h scan ∧
      t' = { t with source := scan.source } := by
  unfold readHeader at hh
  cases hc : Header.decode (.fixed key) ⟨t.source, []⟩ with
  | error e scan => rw [hc] at hh; simp at hh
  | ok h' scan =>
    rw [hc] at hh
    obtain ⟨rfl, rfl⟩ := EStateM.Result.ok.inj hh
    exact ⟨scan, rfl, rfl⟩

/-- It does so when it fails, too. -/
theorem readHeader_eq_error {key : Key} {e : Failure} {t' : StreamDesk}
    (hh : readHeader key t = .error e t') :
    ∃ scan, Header.decode (.fixed key) ⟨t.source, []⟩ = .error e scan ∧
      t' = { t with source := scan.source } := by
  unfold readHeader at hh
  cases hc : Header.decode (.fixed key) ⟨t.source, []⟩ with
  | ok h scan => rw [hc] at hh; simp at hh
  | error err scan =>
    rw [hc] at hh
    obtain ⟨rfl, rfl⟩ := EStateM.Result.error.inj hh
    exact ⟨scan, rfl, rfl⟩

/-- The header of some bytes, as a step at a desk. -/
def header (key : Key) (c : Bytes) : AtDesk (Header × Nat) :=
  match Header.ofBytes (.fixed key) c [] with
  | .ok found _ => pure found
  | .error e _ => throw e

theorem header_of_ofBytes {key : Key} {c : Bytes} {found : Header × Nat} {asked : List String}
    (h : Header.ofBytes (.fixed key) c [] = .ok found asked) (d : Desk) :
    header key c d = .ok found d := by
  unfold header
  rw [h]
  rfl

/-- The header at the beginning of a stream.  Written under the key, it is what was read. -/
theorem alike_readHeader (key : Key) {c : Bytes} {reader : Reader} (hr : reader.Delivers c none)
    (ht : t.source = .ofReader reader) :
    Alike
      (fun found h d' t' => h = found.1 ∧ h.encodeWith key = c.take found.2 ∧
        ∃ source, t' = { t with toDesk := d', source } ∧ source.Delivers (c.drop found.2) none)
      FailedSame (header key c t.toDesk) (readHeader key t) := by
  unfold header readHeader
  rw [ht]
  rcases (Header.alike_ofBytes (.fixed key) hr []).outcome with
    ⟨found, _, asked, scan, hm, hs, rfl, -, -, hd⟩ | ⟨e, e', asked, scan, hm, hs, he, -⟩
  · have hform : found.1.encodeWith key = c.take found.2 :=
      Header.encodeWith_of_ofBytes hm fun _ _ => rfl
    rw [hm, hs]
    exact ⟨rfl, hform, scan.source, rfl, hd⟩
  · rw [hm, hs]
    exact ⟨by rw [he, Failure.atEnd_none], rfl⟩

/-- The transfer that a desk begins with. -/
def begun (t : StreamDesk) : Transfer :=
  { engine := t.engine, source := t.source, writer := t.writer
    stages := ({} : StageTimes).enter .header }

theorem transferring_eq (call : EStateM Failure Transfer Unit) (t : StreamDesk) :
    transferring call t =
      match call (begun t) with
      | .ok () t' =>
        .ok t'.summary { t with engine := t'.engine, source := t'.source, writer := t'.writer }
      | .error e t' =>
        .error e { t with engine := t'.engine, source := t'.source, writer := t'.writer } := rfl

/-- **The body**: a transfer that comes to what the engine makes of the whole is a stream that
does. -/
theorem alike_transferring {d before : Bytes} {call : EStateM Failure Transfer Unit}
    (h : Alike (Transfer.Received before) Transfer.FailedSame (t.engine.transform d)
      (call (begun t))) :
    Alike (Received before) FailedSame (onEngine (Engine.transform d) t.toDesk)
      (transferring call t) := by
  rw [transferring_eq]
  unfold onEngine
  rcases h.outcome with ⟨out, _, e, t', hw, hc, hengine, hreceived⟩ |
    ⟨err, err', e, t', hw, hc, hsame, hengine⟩
  · rw [hw, hc]
    exact ⟨hreceived, by simp only [hengine]⟩
  · rw [hw, hc]
    exact ⟨hsame, by simp only [hengine]⟩

/-- A stream is not refused when the engine can work on one. -/
theorem checkStreams_eq_ok (hs : t.engine.streams = true) :
    atDesk checkStreams t = .ok () t := by
  unfold atDesk checkStreams
  rw [if_pos hs]

/-- A call of the engine that ends well. -/
theorem onEngine_eq_ok {call : EStateM Failure Engine α} {d d' : Desk} {a : α}
    (h : onEngine call d = .ok a d') : call d.engine = .ok a d'.engine := by
  unfold onEngine at h
  cases hc : call d.engine with
  | ok b e =>
    rw [hc] at h
    obtain ⟨rfl, rfl⟩ := EStateM.Result.ok.inj h
    rfl
  | error err e => rw [hc] at h; simp at h

/-- It leaves the engine as the call left it, and nothing else is changed. -/
theorem onEngine_of_ok {call : EStateM Failure Engine α} {d : Desk} {a : α} {e : Engine}
    (h : call d.engine = .ok a e) : onEngine call d = .ok a { d with engine := e } := by
  unfold onEngine
  rw [h]

/-- A call of the engine that fails. -/
theorem onEngine_of_error {call : EStateM Failure Engine α} {d : Desk} {err : Failure} {e : Engine}
    (h : call d.engine = .error err e) : onEngine call d = .error err { d with engine := e } := by
  unfold onEngine
  rw [h]

/-! ## 2. Streams -/

theorem decrypt_eq (key : Key) (c : Bytes) :
    decrypt key c = header key c >>= fun found =>
      onEngine (Engine.keyFor .decrypt key found.1.nonce (c.take found.2)) >>= fun _ =>
        onEngine (Engine.transform (c.drop found.2)) := by
  unfold decrypt header
  cases Header.ofBytes (.fixed key) c [] <;> rfl

/-- **Opening what is made of the right parts**: the header, the engine keyed for it, and what it
makes of the body. -/
theorem decrypt_of_whole {key : Key} {c plain : Bytes} {d : Desk} {h : Header} {n : Nat}
    {asked : List String} {keyed : Engine}
    (hread : Header.ofBytes (.fixed key) c [] = .ok (h, n) asked)
    (hkeyed : Engine.keyFor .decrypt key h.nonce (c.take n) d.engine = .ok () keyed)
    (hwhole : keyed.whole (c.drop n) = .ok plain) : ∃ done, decrypt key c d = .ok plain done := by
  have hbody := Engine.transform_eq_whole (Engine.settled_keyFor hkeyed) (c.drop n)
  rw [hwhole] at hbody
  refine ⟨{ d with engine := keyed.spent }, ?_⟩
  rw [decrypt_eq, bind_of_ok (header_of_ofBytes hread d), bind_of_ok (onEngine_of_ok hkeyed)]
  exact onEngine_of_ok hbody

/-- A chunk size of zero counts as one. -/
theorem chunk_pos (chunkSize : Nat) : 0 < max chunkSize 1 :=
  Nat.lt_of_lt_of_le Nat.one_pos (Nat.le_max_right _ _)

/-- **Opening a stream comes to what opening the whole comes to.** -/
theorem alike_decrypt (key : Key) (chunkSize : Nat) (hs : t.engine.streams = true) {c : Bytes}
    {reader : Reader} (hr : reader.Delivers c none) (ht : t.source = .ofReader reader)
    (hw : t.writer.Accepting) :
    Alike (Received t.writer.received) FailedSame (decrypt key c t.toDesk)
      (decryptStream key chunkSize t) := by
  rw [decrypt_eq]
  unfold decryptStream
  rw [bind_of_ok (checkStreams_eq_ok hs)]
  refine (alike_readHeader key hr ht).bind ?_
  rintro ⟨_, n⟩ h d₁ _ ⟨rfl, hform, source, rfl, hd⟩
  rw [hform]
  refine (alike_atDesk (t := { t with toDesk := d₁, source })
    (onEngine (Engine.keyFor .decrypt key h.nonce (c.take n)))).bind ?_
  rintro _ _ d₂ _ ⟨-, hkeyed, rfl⟩
  have hsettled := Engine.settled_keyFor (onEngine_eq_ok hkeyed)
  exact alike_transferring (t := { t with toDesk := d₂, source })
    (Transfer.alike_inward (t := begun { t with toDesk := d₂, source }) (chunk_pos chunkSize) hd
      hsettled hw (c.take n))

/-- **Sealing a stream comes to what sealing the whole comes to.** -/
theorem alike_encrypt (key : Key) (chunkSize : Nat) (hs : t.engine.streams = true) {m : Bytes}
    {reader : Reader} (hr : reader.Delivers m none) (ht : t.source = .ofReader reader)
    (hw : t.writer.Accepting) :
    Alike (Received t.writer.received) FailedSame (encrypt key m t.toDesk)
      (encryptStream key chunkSize t) := by
  unfold encrypt encryptStream
  rw [bind_of_ok (checkStreams_eq_ok hs)]
  refine (alike_atDesk newHeader).bind ?_
  rintro _ h d₁ _ ⟨rfl, -, rfl⟩
  refine (alike_atDesk (t := { t with toDesk := d₁ })
    (onEngine (Engine.keyFor .encrypt key h.nonce h.encode))).bind ?_
  rintro _ _ d₂ _ ⟨-, hkeyed, rfl⟩
  have hsettled := Engine.settled_keyFor (onEngine_eq_ok hkeyed)
  have hd : t.source.Delivers m none := by rw [ht]; exact StreamSource.delivers_ofReader hr
  have hbody := alike_transferring (t := { t with toDesk := d₂ })
    (Transfer.alike_outward (t := begun { t with toDesk := d₂ }) (chunk_pos chunkSize) hd hsettled
      hw h.encode)
  rw [← bind_pure (transferring _)]
  refine hbody.bind ?_
  rintro body summary d₃ t₃ ⟨hreceived, hdesk⟩
  refine ⟨?_, hdesk⟩
  rw [hreceived, List.append_assoc]
  rfl

end Envelope.WithKey

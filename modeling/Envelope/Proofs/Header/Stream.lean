/-
# A header at the beginning of a stream

The header of a message in memory is found by looking at its bytes.  The header of a stream is found
by asking a reader, which may hand out the bytes one at a time, be interrupted between any two of
them, end in the middle of a field, or fail there.  This module says that the answer is the same
(`decode_ofReader`): the same header, after the same number of bytes, with the rest of the stream
still to come; and where the bytes are no header, the same failure.

One failure cannot be the same.  Where memory finds that bytes are missing, a reader that has failed
may have had them, and the header is not called truncated: the reader's own failure is reported.  It
is the only failure that a reader can change, and a reader that only ends changes none.

Besides, reading a header takes no byte behind it (`taken_of_decode`): the four bytes that are
looked at and put back are part of the header in either layout, and every field is read to its
length.
-/
import Envelope.Proofs.Header.Dispatch
import Envelope.Proofs.Source.Reads

namespace Envelope.Header

/-- What a failure of memory is on a stream, if it is about missing bytes. -/
theorem atEnd_truncated (failure : Option TransportError) (wanted : Nat) :
    (Failure.truncated wanted).atEnd failure =
      match failure with
      | none => .truncated wanted
      | some e => .transport e := by
  cases failure with
  | none => rfl
  | some e => rfl

/-- A failure that is not about missing bytes is what it is on every stream. -/
theorem atEnd_of_ne {e : Failure} (h : ∀ wanted, e ≠ .truncated wanted)
    (failure : Option TransportError) : e.atEnd failure = e := by
  unfold Failure.atEnd
  split
  · rename_i wanted
    exact absurd rfl (h wanted)
  · rfl

/-- **The header of a stream is the header of its bytes**, for every reader that delivers them and
then ends or fails, and for every resolver.

* If the bytes begin with a header, the stream does with the same one; as many bytes are consumed,
  and reading on, in any calls or to the end, yields the bytes behind it and then the end or the
  failure of the reader.
* If bytes are missing, as many are missing on a stream that ends; on one that fails its failure is
  reported.
* Every other failure is reported on every stream. -/
theorem decode_ofReader {reader : Reader} {d : Bytes} {failure : Option TransportError}
    (hd : reader.Delivers d failure) (r : Resolver) (asked : List String) :
    (∀ h n asked', ofBytes r d asked = .ok (h, n) asked' →
      ∃ t, decode r ⟨StreamSource.ofReader reader, asked⟩ = .ok h t ∧ t.asked = asked' ∧
        t.source.consumed = n ∧ t.source.Yields (d.drop n) failure ∧
        t.source.rest.1 = StreamSource.everything (d.drop n) failure) ∧
    (∀ wanted asked', ofBytes r d asked = .error (.truncated wanted) asked' →
      ∃ t, decode r ⟨StreamSource.ofReader reader, asked⟩ =
          .error (match failure with
            | none => .truncated wanted
            | some e => .transport e) t ∧ t.asked = asked') ∧
    ∀ e asked', ofBytes r d asked = .error e asked' → (∀ wanted, e ≠ .truncated wanted) →
      ∃ t, decode r ⟨StreamSource.ofReader reader, asked⟩ = .error e t ∧ t.asked = asked' := by
  have halike := alike_ofBytes r hd asked
  refine ⟨?_, ?_, ?_⟩
  · intro h n asked' hmemory
    rw [hmemory] at halike
    obtain ⟨h', t, hstream, rfl, hasked, hconsumed, hleft⟩ := halike.of_ok
    exact ⟨t, hstream, hasked, hconsumed, hleft.yields, hleft.rest⟩
  · intro wanted asked' hmemory
    rw [hmemory] at halike
    obtain ⟨e', t, hstream, rfl, hasked⟩ := halike.of_error
    refine ⟨t, ?_, hasked⟩
    rw [hstream, atEnd_truncated]
  · intro e asked' hmemory hother
    rw [hmemory] at halike
    obtain ⟨e', t, hstream, rfl, hasked⟩ := halike.of_error
    refine ⟨t, ?_, hasked⟩
    rw [hstream, atEnd_of_ne hother]

/-- A plain header and three bytes behind it, from a reader that hands out one byte at a time, is
interrupted twice, and breaks before it comes to a fourth: the header is read, and the three bytes
and the failure are still to come. -/
theorem decode_ofReader_one_at_a_time :
    ∃ (reader : Reader) (t : ScanState StreamSource),
      reader.Delivers (PlainHeader.encode ⟨[5], none⟩ ++ [1, 2, 3])
        (some ⟨.connectionReset, "gone"⟩) ∧
      decode (.ofFunction fun _ => none) ⟨StreamSource.ofReader reader, []⟩ =
        .ok (.plain ⟨[5], none⟩) t ∧
      t.source.consumed = 9 ∧ t.source.Yields [1, 2, 3] (some ⟨.connectionReset, "gone"⟩) := by
  have hb : Built (.plain ⟨[5], none⟩) := PlainHeader.new_eq_ok.mpr ⟨rfl, by decide, by simp⟩
  have hd := Reader.delivers_paced_failing (PlainHeader.encode ⟨[5], none⟩ ++ [1, 2, 3]) [4]
    [0, 7] (by decide : ∀ n ∈ [1], 0 < n) ⟨.connectionReset, "gone"⟩
  obtain ⟨hok, -, -⟩ := decode_ofReader hd (.ofFunction fun _ => none) []
  obtain ⟨t, hread, -, hconsumed, hyields, -⟩ := hok _ _ _ (ofBytes_plain hb _ [] [1, 2, 3])
  exact ⟨_, t, hd, hread, hconsumed, hyields⟩

/-- **A header found on a stream is the header of its bytes**, and what is still to come are the
bytes behind it. -/
theorem ofBytes_of_decode {reader : Reader} {d : Bytes} {failure : Option TransportError}
    (hd : reader.Delivers d failure) {r : Resolver} {asked : List String} {h : Header}
    {t : ScanState StreamSource}
    (hstream : decode r ⟨StreamSource.ofReader reader, asked⟩ = .ok h t) :
    ∃ n, ofBytes r d asked = .ok (h, n) t.asked ∧ t.source.Delivers (d.drop n) failure := by
  rcases (alike_ofBytes r hd asked).outcome with
    ⟨⟨h', n⟩, _, asked', t', hmemory, hstream', rfl, hasked, -, hleft⟩ | ⟨_, _, _, _, -, hfailed, -⟩
  · rw [hstream] at hstream'
    obtain ⟨rfl, rfl⟩ := EStateM.Result.ok.inj hstream'
    rw [hasked]
    exact ⟨n, hmemory, hleft⟩
  · rw [hstream] at hfailed
    simp at hfailed

end Envelope.Header

namespace Envelope

/-! ## No byte behind the header -/

/-- **A reading that takes its bytes straight from the reader**: where it ends well, nothing waits
to be served again, and what the reader has handed out meanwhile is what was counted. -/
def Scan.Straight {α : Type} (x : Scan StreamSource α) : Prop :=
  ∀ s a s', x s = .ok a s' → s.source.replay = [] →
    s'.source.replay = [] ∧ ∃ w, s.source.reader.unread = w ++ s'.source.reader.unread ∧
      s'.source.consumed = s.source.consumed + w.length

namespace Scan.Straight

variable {α β : Type}

theorem bind {x : Scan StreamSource α} {f : α → Scan StreamSource β} (hx : Straight x)
    (hf : ∀ a, Straight (f a)) : Straight (x >>= f) := by
  intro s b s'' h hs
  obtain ⟨a, s', hfirst, hrest⟩ := bind_eq_ok.mp h
  obtain ⟨hs', w, hw, hn⟩ := hx s a s' hfirst hs
  obtain ⟨hs'', v, hv, hm⟩ := hf a s' b s'' hrest hs'
  refine ⟨hs'', w ++ v, ?_, ?_⟩
  · rw [hw, hv, List.append_assoc]
  · rw [hm, hn, List.length_append, Nat.add_assoc]

/-- What does not touch the source is straight. -/
theorem of_source {x : Scan StreamSource α}
    (h : ∀ s a s', x s = .ok a s' → s'.source = s.source) : Straight x := by
  intro s a s' hok hs
  rw [h s a s' hok]
  exact ⟨hs, [], rfl, rfl⟩

theorem pure (a : α) : Straight (Pure.pure a : Scan StreamSource α) := by
  refine of_source fun s b s' h => ?_
  obtain ⟨-, rfl⟩ := EStateM.Result.ok.inj h
  rfl

theorem throw (e : Failure) : Straight (throw e : Scan StreamSource α) :=
  of_source fun s b s' h => by simp at h

theorem asking (r : Resolver) (name : String) :
    Straight (Scan.asking (r.key name) : Scan StreamSource Key) := by
  refine of_source fun s k s' h => ?_
  obtain ⟨-, rfl⟩ := Scan.asking_key_eq_ok h
  rfl

theorem bytes (n : Nat) : Straight (Scan.bytes n) := by
  intro s w s' h hs
  rw [Scan.bytes, Scan.onSource_eq] at h
  cases ht : StreamSource.take n s.source with
  | error e source => simp [Source.take, ht] at h
  | ok w₁ source =>
    simp only [Source.take, ht, EStateM.Result.ok.injEq] at h
    obtain ⟨rfl, rfl⟩ := h
    obtain ⟨hqueue, hcount⟩ := StreamSource.take_counts ht
    obtain ⟨-, hunread⟩ := LawfulSource.front (σ := StreamSource) ht
    have hempty : source.replay = [] := by rw [hqueue, hs, List.drop_nil]
    refine ⟨hempty, w₁, ?_, hcount⟩
    have hall : s.source.replay ++ s.source.reader.unread =
        w₁ ++ (source.replay ++ source.reader.unread) := hunread
    rwa [hs, hempty] at hall

end Scan.Straight

namespace Header

/-- **What composes along chains and holds of every field, every question and every failure holds of
reading a header**, from where the place is remembered. -/
theorem decode_induction {σ : Type} [Source σ] {P : ∀ {α : Type}, Scan σ α → Prop}
    (hbind : ∀ {α β : Type} {x : Scan σ α} {f : α → Scan σ β}, P x → (∀ a, P (f a)) → P (x >>= f))
    (hpure : ∀ {α : Type} (a : α), P (pure a : Scan σ α)) (hbytes : ∀ n, P (Scan.bytes n))
    (hask : ∀ (r : Resolver) (name : String), P (Scan.asking (r.key name) : Scan σ Key))
    (hthrow : ∀ {α : Type} (e : Failure), P (throw e : Scan σ α)) (r : Resolver) :
    P (Scan.int32 >>= decodeAfter r : Scan σ Header) := by
  refine hbind (Scan.field_induction hbind hpure hbytes).2 fun number => ?_
  unfold decodeAfter
  split
  · refine hbind ?_ fun h => hpure _
    exact PlainHeader.afterLength_induction hbind hpure hbytes (fun _ => hthrow _) number
  · refine hbind ?_ fun h => hpure _
    exact AuthenticatedHeader.afterMarker_induction hbind hpure hbytes hask hthrow r

/-- **Reading a header takes its bytes straight from the reader**, although the first four may be
looked at twice: going back puts them into the queue, and the plain layout takes them out again. -/
theorem straight_decode (r : Resolver) : Scan.Straight (decode r : Scan StreamSource Header) := by
  have honce : Scan.Straight (Scan.int32 >>= decodeAfter r) :=
    decode_induction .bind .pure .bytes .asking .throw r
  intro s h s' hd hs
  rw [decode_once] at hd
  exact honce (Scan.marked s) h s' hd hs

/-- **What was taken from the reader when a header was found** is the header, and what is still to
come are the bytes behind it. -/
theorem taken_of_decode {reader : Reader} {d : Bytes} {failure : Option TransportError}
    (hd : reader.Delivers d failure) {r : Resolver} {asked : List String} {h : Header}
    {t : ScanState StreamSource}
    (hstream : decode r ⟨StreamSource.ofReader reader, asked⟩ = .ok h t) :
    ofBytes r d asked = .ok (h, h.length) t.asked ∧ t.source.Delivers (d.drop h.length) failure ∧
      t.source.replay = [] ∧
      ∃ w, w.length = h.length ∧ reader.unread = w ++ t.source.reader.unread := by
  obtain ⟨hreplay, w, hw, hcount⟩ := straight_decode r _ _ _ hstream rfl
  have halike := alike_ofBytes r hd asked
  rw [hstream] at halike
  rcases halike.outcome with
    ⟨⟨h', n⟩, _, _, t', hmemory, hsame, rfl, rfl, hconsumed, hleft⟩ | ⟨_, _, _, _, -, hfailed, -⟩
  · obtain ⟨rfl, rfl⟩ := EStateM.Result.ok.inj hsame
    obtain ⟨hn, -, hspells⟩ := ofBytes_eq_ok hmemory
    have hlength : n = h.length := by
      rw [← hspells.length, List.length_take]
      omega
    have hzero : (StreamSource.ofReader reader).consumed = 0 := rfl
    refine ⟨hlength ▸ hmemory, hlength ▸ hleft, hreplay, w, ?_, hw⟩
    simp only at hcount hconsumed
    omega
  · simp at hfailed

end Header

end Envelope

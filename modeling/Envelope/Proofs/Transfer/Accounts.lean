/-
# The books of a transfer

The counts of a transfer are kept in three places: the header is counted when it was written or
read, each chunk when what came out of it was written, and the rest of the answer after the flush.
Nothing compares them with what the reader and the writer have seen.  This module does: whatever
stretch of a transfer has ended well, the counts went up by what was handed out and by what was
received meanwhile (`Booked`).

A chunk is filled across any number of short reads, and the end is found by one more attempt that
yields nothing and is not counted.  So the number of chunks depends on neither: it is the number of
pieces of one size that the body makes, the last of which may be shorter (`booked_chunks`).
-/
import Mathlib.Algebra.Order.Floor.Div
import Envelope.Proofs.Source.Rewind
import Envelope.Proofs.Transfer.Outcome

namespace Envelope

/-- A piece from the reader alone is what the reader hands out for it. -/
theorem StreamSource.handsOut_piece {s s' : StreamSource} {n : Nat} {bs : Bytes}
    (hq : s.replay = []) (h : s.piece n = (.ok bs, s')) :
    s'.replay = [] ∧ s.reader.HandsOut bs s'.reader := by
  unfold piece at h
  split at h
  · simp at h
  · rename_i hfetch
    simp only [fetch_of_nil hq, Prod.mk.injEq] at hfetch
    obtain ⟨rfl, -, rfl⟩ := hfetch
    simp only [Prod.mk.injEq, Except.ok.injEq] at h
    obtain ⟨rfl, rfl⟩ := h
    exact ⟨hq, s.reader.handsOut_fill n⟩

/-- **One piece off the front leaves one piece less.** -/
theorem ceilDiv_eq_add_one {n size : Nat} (hn : 0 < n) (hsize : 0 < size) :
    n ⌈/⌉ size = 1 + (n - size) ⌈/⌉ size := by
  rw [Nat.ceilDiv_eq_add_pred_div, Nat.ceilDiv_eq_add_pred_div]
  rcases Nat.lt_or_ge n size with hlt | hge
  · -- the piece is the last one, and shorter
    have hnone : n - size + size - 1 < size := by omega
    have hone : n + size - 1 = n - 1 + size := by omega
    rw [Nat.div_eq_of_lt hnone, hone, Nat.add_div_right _ hsize, Nat.div_eq_of_lt (by omega)]
  · have hrest : n + size - 1 = n - size + size - 1 + size := by omega
    rw [hrest, Nat.add_div_right _ hsize, Nat.add_comm]

namespace Transfer

variable {t t' : Transfer} {size room : Nat} {d : Bytes} {failure : Option TransportError}

/-! ## 1. Calls that end well -/

theorem onEngine_eq_ok {α : Type} {call : EStateM EngineError Engine α} {a : α}
    (h : onEngine call t = .ok a t') :
    ∃ engine, t' = ({ t with engine } : Transfer).enter .cipher := by
  unfold onEngine at h
  cases hc : call t.engine with
  | error e engine => simp [hc] at h
  | ok b engine =>
    rw [hc] at h
    obtain ⟨-, rfl⟩ := EStateM.Result.ok.inj h
    exact ⟨engine, rfl⟩

theorem onWriter_eq_ok {call : EStateM TransportError Writer Unit}
    (h : onWriter call t = .ok () t') :
    ∃ writer, call t.writer = .ok () writer ∧
      t' = ({ t with writer } : Transfer).enter .write := by
  unfold onWriter at h
  cases hc : call t.writer with
  | error e writer => simp [hc] at h
  | ok _ writer =>
    rw [hc] at h
    obtain ⟨-, rfl⟩ := EStateM.Result.ok.inj h
    exact ⟨writer, rfl, rfl⟩

/-! ## 2. Stretches of a transfer -/

/-- **From `t` to `t'` the books are right**: `taken` was handed out by the reader, in `k` chunks,
and `given` was received by the writer; this is how far the counts of the body went up, and the
header was not counted again. -/
structure Booked (k : Nat) (taken given : Bytes) (t t' : Transfer) : Prop where
  chunks : t'.counts.chunks = t.counts.chunks + k
  bytesHeader : t'.counts.bytesHeader = t.counts.bytesHeader
  bytesIn : t'.counts.bytesIn = t.counts.bytesIn + taken.length
  bytesOut : t'.counts.bytesOut = t.counts.bytesOut + given.length
  queue : t'.source.replay = []
  read : t.source.reader.HandsOut taken t'.source.reader
  written : t'.writer.received = t.writer.received ++ given

/-- **Stretches add up.** -/
theorem Booked.trans {t₁ t₂ t₃ : Transfer} {k₁ k₂ : Nat} {taken₁ taken₂ given₁ given₂ : Bytes}
    (h₁ : Booked k₁ taken₁ given₁ t₁ t₂) (h₂ : Booked k₂ taken₂ given₂ t₂ t₃) :
    Booked (k₁ + k₂) (taken₁ ++ taken₂) (given₁ ++ given₂) t₁ t₃ where
  chunks := by rw [h₂.chunks, h₁.chunks, Nat.add_assoc]
  bytesHeader := h₂.bytesHeader.trans h₁.bytesHeader
  bytesIn := by rw [h₂.bytesIn, h₁.bytesIn, List.length_append, Nat.add_assoc]
  bytesOut := by rw [h₂.bytesOut, h₁.bytesOut, List.length_append, Nat.add_assoc]
  queue := h₂.queue
  read := h₁.read.trans h₂.read
  written := by rw [h₂.written, h₁.written, List.append_assoc]

/-- Where nothing but a header was counted before, the counts are those of the stretch. -/
theorem Booked.counts_eq {k n : Nat} {taken given : Bytes} (h : Booked k taken given t t')
    (ht : t.counts = Counts.addHeader n {}) :
    t'.counts = ⟨k, n, taken.length, given.length⟩ := by
  obtain ⟨hchunks, hheader, hin, hout, -, -, -⟩ := h
  rw [ht] at hchunks hheader hin hout
  simp only [Counts.addHeader, Nat.zero_add] at hchunks hheader hin hout
  rw [← hchunks, ← hheader, ← hin, ← hout]

/-- **A turn of the loop**: one piece is read, and one chunk is counted when its answer is
written. -/
theorem booked_turn {input : Bytes} {source : StreamSource} (hq : t.source.replay = [])
    (hp : t.source.piece size = (.ok input, source))
    (hc : chunk room input (({ t with source } : Transfer).enter .read) = .ok () t') :
    ∃ given, Booked 1 input given t t' := by
  obtain ⟨hq', hout⟩ := StreamSource.handsOut_piece hq hp
  obtain ⟨given, _, hengine, hc⟩ := bind_eq_ok.mp hc
  obtain ⟨engine, rfl⟩ := onEngine_eq_ok hengine
  obtain ⟨_, _, hwriter, hc⟩ := bind_eq_ok.mp hc
  obtain ⟨writer, hwritten, rfl⟩ := onWriter_eq_ok hwriter
  obtain ⟨-, rfl⟩ := EStateM.Result.ok.inj hc
  exact ⟨given, rfl, rfl, rfl, rfl, hq', hout, Writer.received_of_writeAll hwritten⟩

/-- **The last turn** finds nothing, and nothing is counted. -/
theorem booked_end {source : StreamSource} (hq : t.source.replay = [])
    (hp : t.source.piece size = (.ok [], source)) :
    Booked 0 [] [] t (({ t with source } : Transfer).enter .read) := by
  obtain ⟨hq', hout⟩ := StreamSource.handsOut_piece hq hp
  exact ⟨rfl, rfl, rfl, rfl, hq', hout, (List.append_nil _).symm⟩

/-- **The loop reads all that is still to come, in pieces of one size**, and as many chunks are
counted as it makes. -/
theorem booked_chunks (hsize : 0 < size) (hd : t.source.Delivers d failure)
    (hq : t.source.replay = []) (h : chunks size room t = .ok () t') :
    ∃ given, Booked (d.length ⌈/⌉ size) d given t t' := by
  induction hl : d.length using Nat.strong_induction_on generalizing d t with
  | _ l ih =>
    rcases hd.piece_cases hsize with ⟨source, rfl, -, hpiece, -⟩ | ⟨e, source, -, hpiece⟩ |
      ⟨source, hne, hfront, hpiece, hrest⟩
    · rw [chunks_of_end hpiece] at h
      obtain ⟨-, rfl⟩ := EStateM.Result.ok.inj h
      rw [← hl, List.length_nil, zero_ceilDiv]
      exact ⟨[], booked_end hq hpiece⟩
    · rw [chunks_of_failure hpiece] at h
      simp at h
    · rw [chunks_of_piece hpiece hfront] at h
      cases hc : chunk room (d.take size) (({ t with source } : Transfer).enter .read) with
      | error e t₁ =>
        rw [hc] at h
        simp at h
      | ok _ t₁ =>
        rw [hc] at h
        obtain ⟨front, hturn⟩ := booked_turn hq hpiece hc
        have hsource : t₁.source = source := source_chunk hc
        have hpos : 0 < d.length := List.length_pos_iff.mpr hne
        have hshort : (d.drop size).length < l := by
          rw [List.length_drop]
          omega
        obtain ⟨back, hback⟩ := ih _ hshort (hsource ▸ hrest) hturn.queue h rfl
        -- the front and the rest together are the whole
        have hall := hturn.trans hback
        rw [List.take_append_drop, List.length_drop, ← ceilDiv_eq_add_one hpos hsize, hl] at hall
        exact ⟨front ++ back, hall⟩

/-- **The end of the body**: the rest of the answer is counted behind the flush. -/
theorem booked_last (hq : t.source.replay = []) (h : last room t = .ok () t') :
    ∃ given, Booked 0 [] given t t' := by
  obtain ⟨given, _, hengine, h⟩ := bind_eq_ok.mp h
  obtain ⟨engine, rfl⟩ := onEngine_eq_ok hengine
  obtain ⟨_, _, hwriter, h⟩ := bind_eq_ok.mp h
  obtain ⟨writer, hreleased, rfl⟩ := onWriter_eq_ok hwriter
  obtain ⟨-, rfl⟩ := EStateM.Result.ok.inj h
  obtain ⟨w, hwritten, hflushed⟩ := Writer.release_eq_ok hreleased
  have hsame := Writer.received_flush w
  rw [hflushed] at hsame
  exact ⟨given, rfl, rfl, rfl, rfl, hq, .refl _, hsame.trans hwritten⟩

/-! ## 3. Bodies -/

/-- **A body that came through is accounted for**, and what was written is what the engine makes of
it. -/
theorem booked_body (hsize : 0 < size) (hd : t.source.Delivers d failure)
    (hq : t.source.replay = []) (he : t.engine.Settled) (h : body size t = .ok () t') :
    ∃ out, t.engine.whole d = .ok out ∧ Booked (d.length ⌈/⌉ size) d out t t' := by
  have houtcome := body_outcome size he
  rw [h] at houtcome
  obtain ⟨out, w, hnone, hwhole, hreceived, hflushed⟩ := houtcome.complete hsize hd
  rw [← hd.prefix_unread.2 hnone] at hwhole
  refine ⟨out, hwhole, ?_⟩
  cases hc : chunks size (t.engine.updateOutput size) t with
  | error e t₁ =>
    rw [body_of_chunks_error hc] at h
    simp at h
  | ok _ t₁ =>
    rw [body_of_chunks hc] at h
    obtain ⟨front, hfront⟩ := booked_chunks hsize hd hq hc
    obtain ⟨back, hback⟩ := booked_last hfront.queue h
    have hall := hfront.trans hback
    rw [List.append_nil, Nat.add_zero] at hall
    -- what was received in pieces is the answer
    have hflush := Writer.received_flush w
    rw [hflushed] at hflush
    have hsame : t.writer.received ++ (front ++ back) = t.writer.received ++ out :=
      hall.written.symm.trans (hflush.trans hreceived)
    rw [List.append_cancel_left hsame] at hall
    exact hall

end Transfer

end Envelope

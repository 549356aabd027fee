/-
# A stream comes to what the whole message comes to

The loop over the chunks is followed by what is still to come from the source.  Each turn takes the
front of it, feeds it, and writes what is given out (`turn_cases`); so after the last turn the
engine has been fed everything and the writer has received everything that was given out for it
(`chunks_run`).  Because feeding in pieces is feeding the whole, neither the size of the chunks nor
the way the source was cut can be seen in the result: the body comes to what the engine makes of the
whole of it (`alike_body`).

All this is about a writer that accepts what it is offered.  The last section is about any writer,
and any engine and source: it holds the header first, whatever goes wrong (`received_outward`).
-/
import Envelope.Proofs.Engine
import Envelope.Proofs.Source
import Envelope.Proofs.Writer
import Envelope.Transfer

namespace Envelope.Transfer

variable {t : Transfer}

/-! ## 1. One chunk -/

/-- A call of the engine that ends well. -/
theorem onEngine_of_ok {α : Type} {call : EStateM EngineError Engine α} {a : α} {e : Engine}
    (h : call t.engine = .ok a e) :
    onEngine call t = .ok a (({ t with engine := e } : Transfer).enter .cipher) := by
  unfold onEngine
  rw [h]

/-- A call of the engine that fails. -/
theorem onEngine_of_error {α : Type} {call : EStateM EngineError Engine α} {err : EngineError}
    {e : Engine} (h : call t.engine = .error err e) :
    onEngine call t = .error (.ofEngine err) { t with engine := e } := by
  unfold onEngine
  rw [h]

/-- A call of the writer that ends well. -/
theorem onWriter_of_ok {call : EStateM TransportError Writer Unit} {w : Writer}
    (h : call t.writer = .ok () w) :
    onWriter call t = .ok () (({ t with writer := w } : Transfer).enter .write) := by
  unfold onWriter
  rw [h]

/-- A call of the writer that fails. -/
theorem onWriter_of_error {call : EStateM TransportError Writer Unit} {e : TransportError}
    {w : Writer} (h : call t.writer = .error e w) :
    onWriter call t = .error (.transport e) { t with writer := w } := by
  unfold onWriter
  rw [h]

/-- What the writer accepts is written. -/
theorem onWriter_writeAll (h : t.writer.Accepting) (offered : Bytes) :
    ∃ t', onWriter (Writer.writeAll offered) t = .ok () t' ∧ t'.engine = t.engine ∧
      t'.source = t.source ∧ t'.writer.received = t.writer.received ++ offered ∧
      t'.writer.Accepting := by
  obtain ⟨w, hw, hr, ha⟩ := h.writeAll offered
  exact ⟨({ t with writer := w } : Transfer).enter .write, onWriter_of_ok hw, rfl, rfl, hr, ha⟩

/-- **What one chunk can come to**: it is fed to the engine, what the engine gives out is offered to
the writer, and whether the writer takes it is all that counts. -/
theorem chunk_cases (he : t.engine.Settled) {input : Bytes} {size : Nat}
    (hs : input.length ≤ size) :
    (∃ t', chunk (t.engine.updateOutput size) input t = .ok () t' ∧
        t'.engine = (t.engine.feed input).2 ∧ t'.source = t.source ∧
        Writer.writeAll (t.engine.feed input).1 t.writer = .ok () t'.writer) ∨
      ∃ e t', chunk (t.engine.updateOutput size) input t = .error (.transport e) t' ∧
        Writer.writeAll (t.engine.feed input).1 t.writer = .error e t'.writer := by
  obtain ⟨t₁, ht₁⟩ : ∃ t₁, t₁ =
      ({ t with engine := (t.engine.feed input).2 } : Transfer).enter .cipher := ⟨_, rfl⟩
  have hupdate : onEngine (Engine.update input (t.engine.updateOutput size)) t =
      .ok (t.engine.feed input).1 t₁ := by
    rw [ht₁]
    exact onEngine_of_ok (Engine.update_eq_feed he hs)
  have hwriter : t₁.writer = t.writer := by rw [ht₁]; rfl
  rw [chunk, bind_of_ok hupdate, ← hwriter]
  cases hw : Writer.writeAll (t.engine.feed input).1 t₁.writer with
  | ok _ w =>
    rw [bind_of_ok (onWriter_of_ok hw)]
    refine Or.inl ⟨_, rfl, ?_, ?_, rfl⟩
    · rw [ht₁]; rfl
    · rw [ht₁]; rfl
  | error e w =>
    rw [bind_of_error (onWriter_of_error hw)]
    exact Or.inr ⟨e, _, rfl, rfl⟩

/-! ## 2. All chunks -/

/-- The loop ends with the source. -/
theorem chunks_of_end {size room : Nat} {source : StreamSource}
    (hp : t.source.piece size = (.ok [], source)) :
    chunks size room t = .ok () (({ t with source } : Transfer).enter .read) := by
  rw [chunks]
  split
  · rename_i e s h
    rw [hp] at h
    simp at h
  · rename_i input s h
    rw [hp] at h
    simp only [Prod.mk.injEq, Except.ok.injEq] at h
    obtain ⟨rfl, rfl⟩ := h
    rw [dif_pos rfl]

/-- The loop fails with the source. -/
theorem chunks_of_failure {size room : Nat} {e : TransportError} {source : StreamSource}
    (hp : t.source.piece size = (.error e, source)) :
    chunks size room t = .error (.transport e) { t with source } := by
  rw [chunks]
  split
  · rename_i e₁ s h
    rw [hp] at h
    simp only [Prod.mk.injEq, Except.error.injEq] at h
    obtain ⟨rfl, rfl⟩ := h
    rfl
  · rename_i input s h
    rw [hp] at h
    simp at h

/-- The loop goes on with a piece: it is a chunk, and then the loop again. -/
theorem chunks_of_piece {size room : Nat} {input : Bytes} {source : StreamSource}
    (hp : t.source.piece size = (.ok input, source)) (hi : input ≠ []) :
    chunks size room t =
      match chunk room input (({ t with source } : Transfer).enter .read) with
      | .error e t' => .error e t'
      | .ok () t' => chunks size room t' := by
  rw [chunks]
  split
  · rename_i e s h
    rw [hp] at h
    simp at h
  · rename_i input₁ s h
    rw [hp] at h
    simp only [Prod.mk.injEq, Except.ok.injEq] at h
    obtain ⟨rfl, rfl⟩ := h
    rw [dif_neg hi]
    split
    · rename_i e t₁ h₁
      rw [h₁]
    · rename_i t₁ h₁
      rw [h₁]

/-- One turn of the loop. -/
theorem chunks_of_turn {size room : Nat} {input : Bytes} {source : StreamSource} {t' : Transfer}
    (hp : t.source.piece size = (.ok input, source)) (hi : input ≠ [])
    (hc : chunk room input (({ t with source } : Transfer).enter .read) = .ok () t') :
    chunks size room t = chunks size room t' := by
  rw [chunks_of_piece hp hi, hc]

/-- **What a turn of the loop can come to**: its piece is fed, and the loop goes on if the writer
takes what is given out for it. -/
theorem turn_cases (he : t.engine.Settled) {size : Nat} {input : Bytes} {source : StreamSource}
    (hp : t.source.piece size = (.ok input, source)) (hi : input ≠ [])
    (hs : input.length ≤ size) :
    (∃ t', chunks size (t.engine.updateOutput size) t =
          chunks size (t'.engine.updateOutput size) t' ∧
        t'.engine = (t.engine.feed input).2 ∧ t'.source = source ∧
        Writer.writeAll (t.engine.feed input).1 t.writer = .ok () t'.writer) ∨
      ∃ e t', chunks size (t.engine.updateOutput size) t = .error (.transport e) t' ∧
        Writer.writeAll (t.engine.feed input).1 t.writer = .error e t'.writer := by
  obtain ⟨t₁, ht₁⟩ : ∃ t₁, t₁ = ({ t with source } : Transfer).enter .read := ⟨_, rfl⟩
  have he₁ : t₁.engine = t.engine := by rw [ht₁]; rfl
  have hw₁ : t₁.writer = t.writer := by rw [ht₁]; rfl
  have hs₁ : t₁.source = source := by rw [ht₁]; rfl
  rw [chunks_of_piece hp hi, ← ht₁, ← he₁, ← hw₁]
  rcases chunk_cases (t := t₁) (he₁ ▸ he) hs with
    ⟨t₂, hchunk, he₂, hs₂, hw₂⟩ | ⟨e, t₂, hchunk, hw₂⟩
  · have hroom : t₂.engine.updateOutput size = t₁.engine.updateOutput size := by
      rw [he₂, Engine.updateOutput_feed]
    rw [hchunk, ← hroom]
    exact Or.inl ⟨t₂, rfl, he₂, hs₂.trans hs₁, hw₂⟩
  · rw [hchunk]
    exact Or.inr ⟨e, t₂, rfl, hw₂⟩

/-- A writer that accepts everything lets the loop go on. -/
theorem turn_run (he : t.engine.Settled) (hw : t.writer.Accepting) {size : Nat} {input : Bytes}
    {source : StreamSource} (hp : t.source.piece size = (.ok input, source)) (hi : input ≠ [])
    (hs : input.length ≤ size) :
    ∃ t', chunks size (t.engine.updateOutput size) t =
        chunks size (t'.engine.updateOutput size) t' ∧
      t'.engine = (t.engine.feed input).2 ∧ t'.source = source ∧
      t'.writer.received = t.writer.received ++ (t.engine.feed input).1 ∧
      t'.writer.Accepting := by
  obtain ⟨w, hwritten, hreceived, haccepting⟩ := hw.writeAll (t.engine.feed input).1
  rcases turn_cases he hp hi hs with ⟨t', hturn, he', hs', hw'⟩ | ⟨e, t', -, hw'⟩
  · rw [hwritten] at hw'
    obtain ⟨-, rfl⟩ := EStateM.Result.ok.inj hw'
    exact ⟨t', hturn, he', hs', hreceived, haccepting⟩
  · rw [hwritten] at hw'
    simp at hw'

/-- **The loop over the chunks feeds everything that is still to come**, and writes everything that
is given out for it. -/
theorem chunks_run {size : Nat} (hsize : 0 < size) {d : Bytes} (hd : t.source.Delivers d none)
    (he : t.engine.Settled) (hw : t.writer.Accepting) :
    ∃ t', chunks size (t.engine.updateOutput size) t = .ok () t' ∧
      t'.engine = (t.engine.feed d).2 ∧
      t'.writer.received = t.writer.received ++ (t.engine.feed d).1 ∧ t'.writer.Accepting := by
  induction hl : d.length using Nat.strong_induction_on generalizing d t with
  | _ l ih =>
    rcases hd.piece_cases hsize with ⟨source, rfl, -, hpiece, -⟩ | ⟨e, source, hfails, -⟩ |
      ⟨source, hne, hfront, hpiece, hrest⟩
    · -- nothing is left to be fed
      refine ⟨_, chunks_of_end hpiece, ?_, ?_, hw⟩
      · rw [Engine.feed_nil he]
        rfl
      · rw [Engine.feed_nil he, List.append_nil]
        rfl
    · simp at hfails
    · have hsmall : (d.take size).length ≤ size := List.length_take_le size d
      obtain ⟨t₁, hturn, he₁, hs₁, hr₁, ha₁⟩ := turn_run he hw hpiece hfront hsmall
      have hshort : (d.drop size).length < l := by
        have hpos : 0 < d.length := List.length_pos_iff.mpr hne
        rw [List.length_drop]
        omega
      have hsettled : t₁.engine.Settled := by rw [he₁]; exact Engine.settled_feed he _
      obtain ⟨t₂, hchunks, he₂, hr₂, ha₂⟩ := ih _ hshort (by rw [hs₁]; exact hrest) hsettled ha₁ rfl
      -- the front and the rest together are the whole
      have hsum := t.engine.feed_append (d.take size) (d.drop size)
      rw [List.take_append_drop] at hsum
      refine ⟨t₂, ?_, ?_, ?_, ha₂⟩
      · rw [hturn]
        exact hchunks
      · rw [he₂, he₁, hsum]
      · rw [hr₂, hr₁, he₁, hsum, List.append_assoc]

/-! ## 3. The end -/

/-- What a body does after its chunks: the engine's last bytes are written, the writer flushed. -/
def last (room : Nat) : EStateM Failure Transfer Unit :=
  onEngine (Engine.finish room) >>= fun output =>
    onWriter (Writer.writeAll output >>= fun _ => Writer.flush) >>= fun _ =>
      note fun t => { t with counts := t.counts.addFinal output.length }

theorem body_of_chunks {size : Nat} {t' : Transfer}
    (h : chunks size (t.engine.updateOutput size) t = .ok () t') :
    body size t = last (max (t.engine.updateOutput size) t'.engine.finishOutput) t' := by
  unfold body
  rw [bind_of_ok (rfl : (get : EStateM Failure Transfer Transfer) t = .ok t t), bind_of_ok h,
    bind_of_ok (rfl : (get : EStateM Failure Transfer Transfer) t' = .ok t' t')]
  rfl

/-- A body fails with its chunks. -/
theorem body_of_chunks_error {size : Nat} {e : Failure} {t' : Transfer}
    (h : chunks size (t.engine.updateOutput size) t = .error e t') :
    body size t = .error e t' := by
  unfold body
  rw [bind_of_ok (rfl : (get : EStateM Failure Transfer Transfer) t = .ok t t), bind_of_error h]

/-- **A message that can be closed is released**, and whether the writer takes it is all that
counts. -/
theorem last_of_close (he : t.engine.Settled) {room : Nat} (hr : t.engine.finishOutput ≤ room)
    {out : Bytes} (hc : t.engine.close = .ok out) :
    ∃ t' : Transfer, t'.engine = t.engine.spent ∧ t'.source = t.source ∧
      ((∃ w, Writer.release out t.writer = .ok () w ∧ t'.writer = w ∧ last room t = .ok () t') ∨
        ∃ e w, Writer.release out t.writer = .error e w ∧ t'.writer = w ∧
          last room t = .error (.transport e) t') := by
  have hfinish := Engine.finish_eq_close he hr
  rw [hc] at hfinish
  obtain ⟨t₁, ht₁⟩ : ∃ t₁, t₁ =
      ({ t with engine := t.engine.spent } : Transfer).enter .cipher := ⟨_, rfl⟩
  have hend : onEngine (Engine.finish room) t = .ok out t₁ := by
    rw [ht₁]
    exact onEngine_of_ok hfinish
  have hlast : last room t = (onWriter (Writer.release out) >>= fun _ =>
      note fun t => { t with counts := t.counts.addFinal out.length }) t₁ := by
    rw [last, bind_of_ok hend]
    rfl
  have hengine : t₁.engine = t.engine.spent := by rw [ht₁]; rfl
  have hsource : t₁.source = t.source := by rw [ht₁]; rfl
  have hwriter : t₁.writer = t.writer := by rw [ht₁]; rfl
  rw [hlast, ← hwriter]
  cases hw : Writer.release out t₁.writer with
  | ok _ w =>
    rw [bind_of_ok (onWriter_of_ok hw)]
    refine ⟨_, ?_, ?_, Or.inl ⟨w, rfl, ?_, rfl⟩⟩
    · exact hengine
    · exact hsource
    · rfl
  | error e w =>
    rw [bind_of_error (onWriter_of_error hw)]
    refine ⟨_, ?_, ?_, Or.inr ⟨e, w, rfl, ?_, rfl⟩⟩
    · exact hengine
    · exact hsource
    · rfl

/-- A writer that accepts everything takes it. -/
theorem last_of_accepting (he : t.engine.Settled) (hw : t.writer.Accepting) {room : Nat}
    (hr : t.engine.finishOutput ≤ room) {out : Bytes} (hc : t.engine.close = .ok out) :
    ∃ t', last room t = .ok () t' ∧ t'.engine = t.engine.spent ∧
      t'.writer.received = t.writer.received ++ out := by
  obtain ⟨w, hrelease, hreceived⟩ := hw.release out
  obtain ⟨t', hengine, -, hlast⟩ := last_of_close he hr hc
  rcases hlast with ⟨w', hw', hwriter, hlast⟩ | ⟨e, w', hw', -⟩
  · rw [hrelease] at hw'
    obtain ⟨-, rfl⟩ := EStateM.Result.ok.inj hw'
    exact ⟨t', hlast, hengine, by rw [hwriter, hreceived]⟩
  · rw [hrelease] at hw'
    simp at hw'

/-- A message that cannot be closed fails for the engine's reason. -/
theorem last_of_close_error (he : t.engine.Settled) {room : Nat}
    (hr : t.engine.finishOutput ≤ room) {err : EngineError} (hc : t.engine.close = .error err) :
    last room t = .error (.ofEngine err) { t with engine := t.engine.spent } := by
  have hfinish := Engine.finish_eq_close he hr
  rw [hc] at hfinish
  rw [last, bind_of_error (onEngine_of_error hfinish)]

/-! ## 4. The body -/

/-- **The stream has come to what the whole message comes to**: the writer has received it behind
what it had before, and the engine is left the same. -/
def Received (before out : Bytes) (_ : Unit) (e : Engine) (t : Transfer) : Prop :=
  t.engine = e ∧ t.writer.received = before ++ out

/-- The stream has failed as the whole message does. -/
def FailedSame (err err' : Failure) (e : Engine) (t : Transfer) : Prop :=
  err' = err ∧ t.engine = e

/-- **A body comes to what the whole of it comes to.** -/
theorem alike_body {size : Nat} (hsize : 0 < size) {d : Bytes} (hd : t.source.Delivers d none)
    (he : t.engine.Settled) (hw : t.writer.Accepting) :
    Alike (Received t.writer.received) FailedSame (t.engine.transform d) (body size t) := by
  obtain ⟨t₁, ht₁, he₁, hr₁, ha₁⟩ := chunks_run hsize hd he hw
  have hsettled : t₁.engine.Settled := by rw [he₁]; exact Engine.settled_feed he d
  have hspent : t₁.engine.spent = t.engine.spent := by rw [he₁, Engine.spent_feed]
  have hroom := Nat.le_max_right (t.engine.updateOutput size) t₁.engine.finishOutput
  rw [Engine.transform_eq_whole he, body_of_chunks ht₁, Engine.whole, ← he₁]
  cases hc : t₁.engine.close with
  | error err =>
    rw [last_of_close_error hsettled hroom hc]
    exact ⟨rfl, hspent⟩
  | ok out =>
    obtain ⟨t₂, ht₂, he₂, hr₂⟩ := last_of_accepting hsettled ha₁ hroom hc
    rw [ht₂]
    refine ⟨he₂.trans hspent, ?_⟩
    rw [hr₂, hr₁, List.append_assoc]

/-! ## 5. The two directions -/

/-- **Opening**: what is received is the body's. -/
theorem alike_inward {size : Nat} (hsize : 0 < size) {d : Bytes} (hd : t.source.Delivers d none)
    (he : t.engine.Settled) (hw : t.writer.Accepting) (header : Bytes) :
    Alike (Received t.writer.received) FailedSame (t.engine.transform d)
      (inward header size t) :=
  alike_body (t := { t with counts := t.counts.addHeader header.length }) hsize hd he hw

/-- **Sealing**: the header is received first. -/
theorem alike_outward {size : Nat} (hsize : 0 < size) {d : Bytes} (hd : t.source.Delivers d none)
    (he : t.engine.Settled) (hw : t.writer.Accepting) (header : Bytes) :
    Alike (Received (t.writer.received ++ header)) FailedSame (t.engine.transform d)
      (outward header size t) := by
  obtain ⟨t₁, ht₁, he₁, hs₁, hr₁, ha₁⟩ := onWriter_writeAll hw header
  rw [outward, bind_of_ok ht₁, ← hr₁, ← he₁]
  exact alike_body (t := { t₁ with counts := t₁.counts.addHeader header.length }) hsize
    (by rw [← hs₁] at hd; exact hd) (by rw [← he₁] at he; exact he) ha₁

/-! ## 6. Any engine, any reader, any writer

Of a transfer with which anything may go wrong it can still be said that the writer keeps what it
has received, and so that the header stands in front of everything else. -/

/-- **A run takes nothing back from the writer.** -/
def Grows {α : Type} (x : EStateM Failure Transfer α) : Prop :=
  Along (fun t t' => t.writer.received <+: t'.writer.received) x

variable {α β : Type}

theorem Grows.bind {x : EStateM Failure Transfer α} {f : α → EStateM Failure Transfer β}
    (hx : Grows x) (hf : ∀ a, Grows (f a)) : Grows (x >>= f) :=
  Along.bind (fun h₁ h₂ => h₁.trans h₂) hx hf

/-- A change of the counts is none of the writer. -/
theorem grows_note {change : Transfer → Transfer} (h : ∀ t, (change t).writer = t.writer) :
    Grows (note change) := by
  intro t
  show t.writer.received <+: (change t).writer.received
  rw [h t]

theorem grows_onEngine (call : EStateM EngineError Engine α) : Grows (onEngine call) := by
  intro t
  unfold onEngine
  cases call t.engine <;> exact List.prefix_refl _

theorem grows_onWriter {call : EStateM TransportError Writer Unit}
    (h : Along (fun w w' => w.received <+: w'.received) call) : Grows (onWriter call) := by
  intro t
  have hcall := h t.writer
  unfold onWriter
  cases hc : call t.writer with
  | ok _ w =>
    rw [hc] at hcall
    exact hcall
  | error e w =>
    rw [hc] at hcall
    exact hcall

theorem grows_chunk (room : Nat) (input : Bytes) : Grows (chunk room input) := by
  refine (grows_onEngine _).bind fun output => (grows_onWriter ?_).bind fun _ => grows_note ?_
  · intro w
    obtain ⟨taken, -, hr⟩ := Writer.received_writeAll output w
    exact ⟨taken, hr.symm⟩
  · exact fun _ => rfl

/-- **The loop over the chunks takes nothing back.** -/
theorem grows_chunks (size room : Nat) : Grows (chunks size room) := by
  intro t
  fun_induction chunks size room t with
  | case1 t e source hp => exact List.prefix_refl _
  | case2 t source hp t' => exact List.prefix_refl _
  | case3 t input source hp t' hi e t'' hc =>
    have hchunk := grows_chunk room input t'
    rw [hc] at hchunk
    exact hchunk
  | case4 t input source hp t' hi t'' hc ih =>
    have hchunk := grows_chunk room input t'
    rw [hc] at hchunk
    exact hchunk.trans ih

theorem grows_last (room : Nat) : Grows (last room) := by
  refine (grows_onEngine _).bind fun output => (grows_onWriter ?_).bind fun _ => grows_note ?_
  · intro w
    obtain ⟨taken, -, hr⟩ := Writer.received_release output w
    exact ⟨taken, hr.symm⟩
  · exact fun _ => rfl

/-- A body takes nothing back from the writer. -/
theorem grows_body (size : Nat) : Grows (body size) := by
  intro t
  have hchunks := grows_chunks size (t.engine.updateOutput size) t
  cases hc : chunks size (t.engine.updateOutput size) t with
  | ok _ t' =>
    rw [hc] at hchunks
    rw [body_of_chunks hc]
    exact hchunks.trans (grows_last _ t')
  | error e t' =>
    rw [hc] at hchunks
    rw [body_of_chunks_error hc]
    exact hchunks

/-- **The header first.**  Whatever becomes of a sealing, what the writer has received begins with
the header; or the sealing has failed, and it is a front of the header. -/
theorem received_outward (header : Bytes) (size : Nat) (t : Transfer) :
    ∃ w, (leftBy (outward header size t)).writer.received = t.writer.received ++ w ∧
      (header <+: w ∨ (∃ e t', outward header size t = .error e t') ∧ w <+: header) := by
  rcases Writer.writeAll_cases header t.writer with ⟨writer, hw, hr⟩ |
    ⟨e, writer, taken, hw, hfront, hr⟩
  · have hcount : Grows (countHeader header) := grows_note fun _ => rfl
    have hgrows : Grows (countHeader header >>= fun _ => body size) :=
      hcount.bind fun _ => grows_body size
    obtain ⟨more, hmore⟩ := hgrows (({ t with writer } : Transfer).enter .write)
    refine ⟨header ++ more, ?_, Or.inl (List.prefix_append _ _)⟩
    rw [outward, bind_of_ok (onWriter_of_ok hw), ← List.append_assoc, ← hr]
    exact hmore.symm
  · rw [outward, bind_of_error (onWriter_of_error hw)]
    exact ⟨taken, hr, Or.inr ⟨⟨_, _, rfl⟩, hfront⟩⟩

end Envelope.Transfer

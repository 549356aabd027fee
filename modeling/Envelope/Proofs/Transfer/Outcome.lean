/-
# What a body can come to

Anything may go wrong while a body is worked through: the reader breaks at some byte, the writer
takes a part of what it is offered and then nothing, a flush is refused, the engine finds the
message at fault.  `BodyOutcome` lists what can become of it, for every reader, every writer and
every chunk size, and says for each case what was read, what the engine made of it, and what the
writer holds (`body_outcome`).

The invariant of the loop is the same in all of them: the engine has been fed the front of what was
still to come, and the writer holds what was given out for it, or a front of that if the writer was
what failed (`chunks_cases`).  Since feeding more only adds to what is given out, a front of a front
of the answer is all the writer can ever hold (`BodyOutcome.held`).
-/
import Envelope.Proofs.Source.Lawful
import Envelope.Proofs.Transfer

namespace Envelope

/-! ## 1. Sources that end -/

namespace StreamSource

variable {s s' : StreamSource} {d : Bytes} {failure : Option TransportError}

/-- A piece is taken off the front, and is no longer than was asked for. -/
theorem piece_eq_ok {n : Nat} {bs : Bytes} (h : s.piece n = (.ok bs, s')) :
    s.unread = bs ++ s'.unread ∧ bs.length ≤ n := by
  obtain ⟨field, stop, replay, reader, hf, hu⟩ := s.fetch_cases n
  have hle := (s.length_fetch_le n).1
  rw [hf] at hle
  unfold piece at h
  rw [hf] at h
  cases stop with
  | failed e => simp at h
  | full =>
    simp only [Prod.mk.injEq, Except.ok.injEq] at h
    obtain ⟨rfl, rfl⟩ := h
    exact ⟨hu, hle⟩
  | ended =>
    simp only [Prod.mk.injEq, Except.ok.injEq] at h
    obtain ⟨rfl, rfl⟩ := h
    exact ⟨hu, hle⟩

/-- **The source ends behind `d`**: if it was to deliver anything definite, it was `d` and no
failure. -/
def EndsBehind (s : StreamSource) (d : Bytes) : Prop :=
  ∀ d' failure, s.Delivers d' failure → failure = none ∧ d' = d

/-- A source that has nothing more to hand out ends where it is. -/
theorem endsBehind_nil {n : Nat} (hn : 0 < n) (h : s.piece n = (.ok [], s')) : s.EndsBehind [] := by
  intro d failure hd
  rcases hd.piece_cases hn with
    ⟨_, hnil, hnone, -, -⟩ | ⟨e, _, -, hpiece⟩ | ⟨_, -, hfront, hpiece, -⟩
  · exact ⟨hnone, hnil⟩
  · rw [h] at hpiece
    simp at hpiece
  · rw [h] at hpiece
    simp only [Prod.mk.injEq, Except.ok.injEq] at hpiece
    exact absurd hpiece.1.symm hfront

/-- A source that ends behind some bytes ended behind a piece and them. -/
theorem endsBehind_append {n : Nat} (hn : 0 < n) {bs fed : Bytes} (h : s.piece n = (.ok bs, s'))
    (hne : bs ≠ []) (hends : s'.EndsBehind fed) : s.EndsBehind (bs ++ fed) := by
  intro d failure hd
  rcases hd.piece_cases hn with ⟨_, -, -, hpiece, -⟩ | ⟨e, _, -, hpiece⟩ | ⟨_, -, -, hpiece, hrest⟩
  · rw [h] at hpiece
    simp only [Prod.mk.injEq, Except.ok.injEq] at hpiece
    exact absurd hpiece.1 hne
  · rw [h] at hpiece
    simp at hpiece
  · rw [h] at hpiece
    simp only [Prod.mk.injEq, Except.ok.injEq] at hpiece
    obtain ⟨rfl, rfl⟩ := hpiece
    obtain ⟨hnone, hfed⟩ := hends _ _ hrest
    exact ⟨hnone, by rw [← hfed, List.take_append_drop]⟩

end StreamSource

/-! ## 2. What is given out only grows -/

namespace Engine

/-- What is given out for a front is a front of what is given out. -/
theorem feed_prefix (e : Engine) {front d : Bytes} (h : front <+: d) :
    (e.feed front).1 <+: (e.feed d).1 := by
  obtain ⟨behind, rfl⟩ := h
  rw [feed_append]
  exact List.prefix_append _ _

/-- **What is given out along the way is a front of what the whole comes to.** -/
theorem feed_prefix_whole {e : Engine} {front d out : Bytes} (h : front <+: d)
    (hw : e.whole d = .ok out) : (e.feed front).1 <+: out := by
  refine (e.feed_prefix h).trans ?_
  unfold whole at hw
  cases hc : (e.feed d).2.close with
  | error err => simp [hc, Except.map] at hw
  | ok back =>
    rw [hc] at hw
    obtain rfl := Except.ok.inj hw
    exact List.prefix_append _ _

end Engine

namespace Transfer

variable {t : Transfer} {size : Nat}

/-! ## 3. The chunks -/

/-- **What the loop over the chunks can come to.**  It has been through all of the source, and the
writer holds what was given out for it; or a transport has failed, and the writer holds a front of
what was given out for some front of the source. -/
theorem chunks_cases (size : Nat) (he : t.engine.Settled) :
    (∃ fed t', chunks size (t.engine.updateOutput size) t = .ok () t' ∧
        (0 < size → t.source.EndsBehind fed) ∧ t'.engine = (t.engine.feed fed).2 ∧
        t'.writer.received = t.writer.received ++ (t.engine.feed fed).1) ∨
      ∃ e fed taken t', chunks size (t.engine.updateOutput size) t = .error (.transport e) t' ∧
        fed <+: t.source.unread ∧ taken <+: (t.engine.feed fed).1 ∧
        t'.writer.received = t.writer.received ++ taken := by
  induction hl : t.source.left using Nat.strong_induction_on generalizing t with
  | _ l ih =>
    obtain ⟨piece, source, hp⟩ : ∃ piece source, t.source.piece size = (piece, source) :=
      ⟨_, _, rfl⟩
    cases piece with
    | error e =>
      rw [chunks_of_failure hp]
      exact Or.inr ⟨e, [], [], _, rfl, List.nil_prefix, List.nil_prefix, (List.append_nil _).symm⟩
    | ok input =>
      by_cases hi : input = []
      · subst hi
        rw [chunks_of_end hp]
        refine Or.inl ⟨[], _, rfl, fun hsize => StreamSource.endsBehind_nil hsize hp, ?_, ?_⟩
        · rw [Engine.feed_nil he]
          rfl
        · rw [Engine.feed_nil he, List.append_nil]
          rfl
      · obtain ⟨hunread, hshort⟩ := StreamSource.piece_eq_ok hp
        rcases turn_cases he hp hi hshort with ⟨t₁, hturn, he₁, hs₁, hw₁⟩ | ⟨e, t₁, hturn, hw₁⟩
        · have hless : t₁.source.left < l := by
            have hleft := StreamSource.left_piece hp
            have hpos : 0 < input.length := List.length_pos_iff.mpr hi
            rw [hs₁]
            omega
          have hsettled : t₁.engine.Settled := by rw [he₁]; exact Engine.settled_feed he input
          have hreceived := Writer.received_of_writeAll hw₁
          rw [hturn]
          -- what the rest comes to, behind what the piece has come to
          rcases ih _ hless hsettled rfl with ⟨fed, t₂, hloop, hends, he₂, hr₂⟩ |
            ⟨e, fed, taken, t₂, hloop, hpart, hfront, hr₂⟩
          · refine Or.inl ⟨input ++ fed, t₂, hloop, fun hsize => ?_, ?_, ?_⟩
            · exact StreamSource.endsBehind_append hsize hp hi (hs₁ ▸ hends hsize)
            · rw [he₂, he₁, Engine.feed_append]
            · rw [hr₂, hreceived, he₁, Engine.feed_append, List.append_assoc]
          · rw [hs₁] at hpart
            rw [he₁] at hfront
            refine Or.inr ⟨e, input ++ fed, (t.engine.feed input).1 ++ taken, t₂, hloop, ?_, ?_, ?_⟩
            · rw [hunread]
              exact (List.prefix_append_right_inj input).mpr hpart
            · rw [Engine.feed_append]
              exact (List.prefix_append_right_inj _).mpr hfront
            · rw [hr₂, hreceived, List.append_assoc]
        · -- the writer has failed on what was given out for the piece
          obtain ⟨taken, hfront, hreceived⟩ :=
            Writer.received_writeAll (t.engine.feed input).1 t.writer
          rw [hw₁] at hreceived
          rw [hturn]
          refine Or.inr ⟨e, input, taken, t₁, rfl, ?_, hfront, hreceived⟩
          rw [hunread]
          exact List.prefix_append _ _

/-! ## 4. The body -/

/-- **What a body can come to**, for a transfer that begins with `t`. -/
inductive BodyOutcome (t : Transfer) (size : Nat) :
    EStateM.Result Failure Transfer Unit → Prop where
  /-- Everything was read, everything is written, and the flush has succeeded. -/
  | done {fed out : Bytes} {w : Writer} {t' : Transfer}
      (ends : 0 < size → t.source.EndsBehind fed) (whole : t.engine.whole fed = .ok out)
      (received : w.received = t.writer.received ++ out)
      (flushed : Writer.flush w = .ok () t'.writer) : BodyOutcome t size (.ok () t')
  /-- A transport failed on the way. -/
  | broken {e : TransportError} {fed taken : Bytes} {t' : Transfer}
      (part : fed <+: t.source.unread) (front : taken <+: (t.engine.feed fed).1)
      (received : t'.writer.received = t.writer.received ++ taken) :
      BodyOutcome t size (.error (.transport e) t')
  /-- Everything was read, and the writer failed on the rest of the answer. -/
  | unreleased {e : TransportError} {fed out taken : Bytes} {t' : Transfer}
      (ends : 0 < size → t.source.EndsBehind fed) (whole : t.engine.whole fed = .ok out)
      (front : taken <+: out) (received : t'.writer.received = t.writer.received ++ taken) :
      BodyOutcome t size (.error (.transport e) t')
  /-- Everything was read, and the engine finds it at fault. -/
  | refused {err : EngineError} {fed : Bytes} {t' : Transfer}
      (ends : 0 < size → t.source.EndsBehind fed) (whole : t.engine.whole fed = .error err)
      (received : t'.writer.received = t.writer.received ++ (t.engine.feed fed).1) :
      BodyOutcome t size (.error (.ofEngine err) t')

/-- **Every body comes to one of these.** -/
theorem body_outcome (size : Nat) (he : t.engine.Settled) : BodyOutcome t size (body size t) := by
  rcases chunks_cases size he with ⟨fed, t₁, hloop, hends, he₁, hr₁⟩ |
    ⟨e, fed, taken, t₁, hloop, hpart, hfront, hr₁⟩
  · have hsettled : t₁.engine.Settled := by rw [he₁]; exact Engine.settled_feed he fed
    have hroom := Nat.le_max_right (t.engine.updateOutput size) t₁.engine.finishOutput
    rw [body_of_chunks hloop]
    cases hclose : t₁.engine.close with
    | error err =>
      have hwhole : t.engine.whole fed = .error err := by
        rw [Engine.whole, ← he₁, hclose]
        rfl
      rw [last_of_close_error hsettled hroom hclose]
      exact .refused hends hwhole hr₁
    | ok back =>
      have hwhole : t.engine.whole fed = .ok ((t.engine.feed fed).1 ++ back) := by
        rw [Engine.whole, ← he₁, hclose]
        rfl
      obtain ⟨t₂, -, -, hlast⟩ := last_of_close hsettled hroom hclose
      rcases hlast with ⟨w, hrelease, hw₂, hlast⟩ | ⟨e, w, hrelease, hw₂, hlast⟩
      · obtain ⟨w₁, hwritten, hflushed⟩ := Writer.release_eq_ok hrelease
        rw [hlast]
        refine .done hends hwhole (w := w₁) ?_ (hw₂ ▸ hflushed)
        rw [hwritten, hr₁, List.append_assoc]
      · obtain ⟨taken, hfront, hreceived⟩ := Writer.received_release back t₁.writer
        rw [hrelease] at hreceived
        rw [hlast]
        refine .unreleased hends hwhole ((List.prefix_append_right_inj _).mpr hfront) ?_
        rw [hw₂, ← List.append_assoc, ← hr₁]
        exact hreceived
  · rw [body_of_chunks_error hloop]
    exact .broken hpart hfront hr₁

namespace BodyOutcome

variable {result : EStateM.Result Failure Transfer Unit} {d : Bytes}
  {failure : Option TransportError}

/-- **A front of the answer is all that the writer ever holds**, where the answer is what the engine
makes of everything the reader has, delivered or not. -/
theorem held (h : BodyOutcome t size result) (hsize : 0 < size) (hd : t.source.Delivers d failure)
    {out : Bytes} (hw : t.engine.whole t.source.unread = .ok out) :
    ∃ front, front <+: out ∧ (leftBy result).writer.received = t.writer.received ++ front := by
  have hall : ∀ fed, t.source.EndsBehind fed → fed = t.source.unread := by
    intro fed hends
    obtain ⟨hnone, rfl⟩ := hends d failure hd
    exact hd.prefix_unread.2 hnone
  cases h with
  | done ends whole received flushed =>
    rename_i fed out' w t'
    obtain rfl := hall _ (ends hsize)
    rw [hw] at whole
    obtain rfl := Except.ok.inj whole
    refine ⟨out, List.prefix_refl _, ?_⟩
    have hflush := Writer.received_flush w
    rw [flushed] at hflush
    exact hflush.trans received
  | broken part front received =>
    exact ⟨_, front.trans (Engine.feed_prefix_whole part hw), received⟩
  | unreleased ends whole front received =>
    obtain rfl := hall _ (ends hsize)
    rw [hw] at whole
    obtain rfl := Except.ok.inj whole
    exact ⟨_, front, received⟩
  | refused ends whole received =>
    obtain rfl := hall _ (ends hsize)
    rw [hw] at whole
    simp at whole

/-- **A body that ends well is complete**: the reader has not failed, and the writer holds all of
the answer and has flushed it. -/
theorem complete {t' : Transfer} (h : BodyOutcome t size (.ok () t')) (hsize : 0 < size)
    (hd : t.source.Delivers d failure) :
    ∃ out w, failure = none ∧ t.engine.whole t.source.unread = .ok out ∧
      w.received = t.writer.received ++ out ∧ Writer.flush w = .ok () t'.writer := by
  cases h with
  | done ends whole received flushed =>
    obtain ⟨hnone, rfl⟩ := ends hsize d failure hd
    rw [hd.prefix_unread.2 hnone] at whole
    exact ⟨_, _, hnone, whole, received, flushed⟩

end BodyOutcome

end Transfer

end Envelope

/-
# Nothing is released before it is known to be genuine

An authenticated body that was tampered with must not be given out, not even the front of it, and
not even when something else goes wrong on the way: the reader fails, the writer takes one byte and
then none, a flush is refused.  `FailClosed` is what is promised of every run, however it ends and
whatever its reader and its writer do.

The reason is one invariant of the loop over the chunks: an authenticated engine collects, and what
it gives out for a chunk is nothing (`chunk_aead`).  So the writer has not been called when the loop
ends, and if the source fails it never is (`chunks_aead`).  Only then is the body opened, and the
writer is called for the first time when that has succeeded (`failClosed_body`).
-/
import Envelope.Proofs.Transfer

namespace Envelope

/-! ## 1. The promise -/

/-- **A run that releases nothing but what is genuine.**  The run works with a source and a writer,
`ends`, however it keeps them; `before` is the writer it began with.

* If the writer has received anything, nothing was left to be read, and what it has received is a
  front of something genuine.
* If the run fails, the writer was never called, or the failure is the writer's own: it was given
  something genuine to release and failed. -/
structure FailClosed {σ α : Type} (ends : σ → StreamSource × Writer) (before : Writer)
    (Genuine : Bytes → Prop) (result : EStateM.Result Failure σ α) : Prop where
  released : (ends (leftBy result)).2.received ≠ before.received →
    (ends (leftBy result)).1.left = 0 ∧
      ∃ plain out, Genuine plain ∧ out <+: plain ∧
        (ends (leftBy result)).2.received = before.received ++ out
  withheld : ∀ e t, result = .error e t →
    (ends t).2 = before ∨
      ∃ plain err, Genuine plain ∧ Writer.release plain before = .error err (ends t).2 ∧
        e = .transport err

namespace FailClosed

variable {σ τ α β : Type} {ends : σ → StreamSource × Writer} {before : Writer}
  {Genuine : Bytes → Prop}

/-- A run that does not call the writer keeps the promise. -/
theorem of_untouched {result : EStateM.Result Failure σ α}
    (h : (ends (leftBy result)).2 = before) : FailClosed ends before Genuine result where
  released hne := absurd (congrArg Writer.received h) hne
  withheld e t hr := by
    rw [hr] at h
    exact Or.inl h

/-- **A run that ends with a release keeps the promise**, if what is released is genuine. -/
theorem of_release {result : EStateM.Result Failure σ α} {plain : Bytes}
    (hleft : (ends (leftBy result)).1.left = 0) (hg : Genuine plain)
    (hw : (ends (leftBy result)).2 = leftBy (Writer.release plain before))
    (hown : ∀ e t, result = .error e t →
      ∃ err, Writer.release plain before = .error err (ends t).2 ∧ e = .transport err) :
    FailClosed ends before Genuine result where
  released _ := by
    obtain ⟨out, hfront, hreceived⟩ := Writer.received_release plain before
    exact ⟨hleft, plain, out, hg, hfront, by rw [hw, hreceived]⟩
  withheld e t hr := by
    obtain ⟨err, hbroke, he⟩ := hown e t hr
    exact Or.inr ⟨plain, err, hg, hbroke, he⟩

/-- **A step that leaves the writer alone when it fails may come first.** -/
theorem bind {x : EStateM Failure σ α} {f : α → EStateM Failure σ β} {s : σ}
    (hx : ∀ e t, x s = .error e t → (ends t).2 = before)
    (hf : ∀ a t, x s = .ok a t → FailClosed ends before Genuine (f a t)) :
    FailClosed ends before Genuine ((x >>= f) s) := by
  cases h : x s with
  | ok a t =>
    rw [bind_of_ok h]
    exact hf a t h
  | error e t =>
    rw [bind_of_error h]
    exact of_untouched (hx e t h)

/-- **Only the ends and the failure count.**  A run that leaves the same ends and fails with nothing
else keeps the promise, too, whatever it works on and gives. -/
theorem of_ends {ends' : τ → StreamSource × Writer} {result : EStateM.Result Failure σ α}
    {result' : EStateM.Result Failure τ β} (h : FailClosed ends before Genuine result)
    (hends : ends' (leftBy result') = ends (leftBy result))
    (hfails : ∀ e t', result' = .error e t' → ∃ t, result = .error e t) :
    FailClosed ends' before Genuine result' where
  released := by
    rw [hends]
    exact h.released
  withheld e t' hr := by
    obtain ⟨t, ht⟩ := hfails e t' hr
    rw [hr, ht] at hends
    have hsame : ends' t' = ends t := hends
    rw [hsame]
    exact h.withheld e t ht

/-- What is made of the result of a run does not count. -/
theorem map {x : EStateM Failure σ α} {f : α → β} {s : σ}
    (h : FailClosed ends before Genuine (x s)) :
    FailClosed ends before Genuine ((x >>= fun a => pure (f a)) s) := by
  cases hx : x s with
  | ok a t =>
    rw [hx] at h
    rw [bind_of_ok hx]
    exact h.of_ends rfl (by simp)
  | error e t =>
    rw [hx] at h
    rw [bind_of_error hx]
    exact h.of_ends rfl (by simp)

/-- Less may be known of what is released. -/
theorem mono {Genuine' : Bytes → Prop} {result : EStateM.Result Failure σ α}
    (h : FailClosed ends before Genuine result) (hg : ∀ plain, Genuine plain → Genuine' plain) :
    FailClosed ends before Genuine' result where
  released hne := by
    obtain ⟨hleft, plain, out, hgenuine, hfront, hreceived⟩ := h.released hne
    exact ⟨hleft, plain, out, hg plain hgenuine, hfront, hreceived⟩
  withheld e t hr := by
    rcases h.withheld e t hr with huntouched | ⟨plain, err, hgenuine, hbroke, he⟩
    · exact Or.inl huntouched
    · exact Or.inr ⟨plain, err, hg plain hgenuine, hbroke, he⟩

end FailClosed

namespace Transfer

/-- The ends of a transfer. -/
def ends (t : Transfer) : StreamSource × Writer := (t.source, t.writer)

variable {t : Transfer} {cipher : AeadCipher} {s : Aead.State}

/-! ## 2. The chunks -/

/-- **A chunk is collected**, and the writer is not called. -/
theorem chunk_aead (he : t.engine = .aead ⟨cipher, some s⟩) (room : Nat) (input : Bytes) :
    ∃ t', chunk room input t = .ok () t' ∧ t'.engine = .aead ⟨cipher, some (s.feed input)⟩ ∧
      t'.source = t.source ∧ t'.writer = t.writer := by
  obtain ⟨t₁, ht₁⟩ : ∃ t₁, t₁ =
      ({ t with engine := .aead ⟨cipher, some (s.feed input)⟩ } : Transfer).enter .cipher :=
    ⟨_, rfl⟩
  have hupdate : onEngine (Engine.update input room) t = .ok [] t₁ := by
    rw [ht₁]
    exact onEngine_of_ok (by rw [he]; rfl)
  rw [chunk, bind_of_ok hupdate, bind_of_ok (onWriter_of_ok (Writer.writeAll_nil t₁.writer))]
  refine ⟨_, rfl, ?_, ?_, ?_⟩
  · rw [ht₁]; rfl
  · rw [ht₁]; rfl
  · rw [ht₁]; rfl

/-- A turn of the loop collects its piece. -/
theorem turn_aead (he : t.engine = .aead ⟨cipher, some s⟩) {size room : Nat} {input : Bytes}
    {source : StreamSource} (hp : t.source.piece size = (.ok input, source)) (hi : input ≠ []) :
    ∃ t', chunks size room t = chunks size room t' ∧
      t'.engine = .aead ⟨cipher, some (s.feed input)⟩ ∧ t'.source = source ∧
      t'.writer = t.writer := by
  obtain ⟨t₁, ht₁⟩ : ∃ t₁, t₁ = ({ t with source } : Transfer).enter .read := ⟨_, rfl⟩
  have he₁ : t₁.engine = .aead ⟨cipher, some s⟩ := by rw [ht₁]; exact he
  obtain ⟨t₂, hchunk, he₂, hs₂, hw₂⟩ := chunk_aead he₁ room input
  refine ⟨t₂, chunks_of_turn hp hi (by rw [← ht₁]; exact hchunk), he₂, ?_, ?_⟩
  · rw [hs₂, ht₁]; rfl
  · rw [hw₂, ht₁]; rfl

/-- **What the loop over the chunks comes to when nothing is given out**: the writer was not called;
and the source has ended and the engine has collected what it should, or the source has failed. -/
def Collected (failure : Option TransportError) (engine : Engine) (before : Writer) :
    EStateM.Result Failure Transfer Unit → Prop
  | .ok () t => failure = none ∧ t.source.left = 0 ∧ t.engine = engine ∧ t.writer = before
  | .error e t => (∃ err, failure = some err ∧ e = .transport err) ∧ t.writer = before

/-- **The loop over the chunks of an authenticated body gives nothing out.** -/
theorem chunks_aead {size : Nat} (hsize : 0 < size) (room : Nat) {d : Bytes}
    {failure : Option TransportError} (hd : t.source.Delivers d failure)
    (he : t.engine = .aead ⟨cipher, some s⟩) :
    Collected failure (.aead ⟨cipher, some (s.feed d)⟩) t.writer (chunks size room t) := by
  induction hl : d.length using Nat.strong_induction_on generalizing d t s with
  | _ l ih =>
    rcases hd.piece_cases hsize with ⟨source, rfl, rfl, hpiece, hleft⟩ |
      ⟨e, source, rfl, hpiece⟩ | ⟨source, hne, hfront, hpiece, hrest⟩
    · -- the source has ended
      rw [chunks_of_end hpiece, Aead.State.feed_nil]
      exact ⟨rfl, hleft, he, rfl⟩
    · -- the source has failed
      rw [chunks_of_failure hpiece]
      exact ⟨⟨e, rfl, rfl⟩, rfl⟩
    · -- a piece is collected, and less is still to come
      obtain ⟨t₁, hloop, he₁, hs₁, hw₁⟩ := turn_aead he hpiece hfront
      have hpos : 0 < d.length := List.length_pos_iff.mpr hne
      have hshort : (d.drop size).length < l := by rw [List.length_drop]; omega
      have hcollected := ih _ hshort (by rw [hs₁]; exact hrest) he₁ rfl
      rw [← Aead.State.feed_append, List.take_append_drop, hw₁] at hcollected
      rw [hloop]
      exact hcollected

/-! ## 3. The body -/

/-- **A body for an authenticated engine is released as a whole or not at all**, as far as the
writer takes it: what is released is what the engine makes of all that was delivered. -/
theorem failClosed_body {size : Nat} (hsize : 0 < size) {d : Bytes}
    {failure : Option TransportError} (hd : t.source.Delivers d failure)
    (he : t.engine = .aead ⟨cipher, some s⟩) :
    FailClosed ends t.writer
      (fun plain => failure = none ∧ t.engine.whole d = .ok plain) (body size t) := by
  have hcollected := chunks_aead hsize (t.engine.updateOutput size) hd he
  cases hchunks : chunks size (t.engine.updateOutput size) t with
  | error e t₁ =>
    rw [hchunks] at hcollected
    obtain ⟨-, hw₁⟩ := hcollected
    rw [body_of_chunks_error hchunks]
    exact FailClosed.of_untouched hw₁
  | ok _ t₁ =>
    rw [hchunks] at hcollected
    obtain ⟨rfl, hleft, he₁, hw₁⟩ := hcollected
    have hsettled : t₁.engine.Settled := by rw [he₁]; exact .aead cipher _
    have hroom := Nat.le_max_right (t.engine.updateOutput size) t₁.engine.finishOutput
    have hfed : t.engine.feed d = ([], t₁.engine) := by rw [he, he₁]; rfl
    have hwhole : t.engine.whole d = t₁.engine.close := by
      rw [Engine.whole, hfed]
      cases t₁.engine.close <;> rfl
    rw [body_of_chunks hchunks]
    cases hclose : t₁.engine.close with
    | error err =>
      rw [last_of_close_error hsettled hroom hclose]
      exact FailClosed.of_untouched hw₁
    | ok plain =>
      obtain ⟨t₂, -, hs₂, hlast⟩ := last_of_close hsettled hroom hclose
      have hleft₂ : t₂.source.left = 0 := by rw [hs₂]; exact hleft
      have hopened : t.engine.whole d = .ok plain := hwhole.trans hclose
      rw [hw₁] at hlast
      rcases hlast with ⟨w, hrelease, hw₂, hlast⟩ | ⟨e, w, hrelease, hw₂, hlast⟩
      · rw [hlast]
        refine FailClosed.of_release hleft₂ ⟨rfl, hopened⟩ ?_ (by simp)
        rw [hrelease]
        exact hw₂
      · rw [hlast]
        refine FailClosed.of_release hleft₂ ⟨rfl, hopened⟩ ?_ ?_
        · rw [hrelease]
          exact hw₂
        · intro e' t' hr
          obtain ⟨rfl, rfl⟩ := EStateM.Result.error.inj hr
          exact ⟨e, by rw [hrelease, ← hw₂]; rfl, rfl⟩

end Transfer

end Envelope

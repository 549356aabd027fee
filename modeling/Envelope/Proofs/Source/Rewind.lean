/-
# Going back on a stream

A stream remembers what it has served since its mark, and is meant to go back to the mark or to
refuse; never to serve a part of what stood there.  This module says what becomes of that under any
sequence of calls: fields, complete or not, pieces, marks, and attempts to go back.

Three things are kept apart for every sequence.

* What is remembered, and behind it what is still to come (`unread`): all that going back can bring
  up, in its order.
* What was *passed* on by `read`.  It is counted as consumed and not remembered.
* What was *dropped* by a field that was not complete.  It is neither counted nor remembered.

Every call other than a mark moves bytes between the three and invents none (`Since.call`), so a
sequence of calls does the same (`Since.calls`).  Going back is refused when more than the marker's
width was served in fields, and changes nothing then.  Otherwise it is done, and brings up all but
what was passed on and what was dropped; the source stands at its mark again exactly when there is
neither (`rewind_since_mark`).  It does not refuse when there is: `rewind_after_read` is such a run.
-/
import Envelope.Proofs.Source

namespace Envelope

/-- The bytes that a call of a reader hands out, if it hands out any. -/
def ReadOutcome.handed : ReadOutcome → Bytes
  | .bytes bs => bs
  | _ => []

/-! ## 1. No byte is passed over -/

namespace Reader

variable {r r' : Reader}

/-- **A call takes what it hands out off the front**, whatever the rule. -/
theorem unread_read {asked : Nat} {outcome : ReadOutcome} (h : r.read asked = (outcome, r')) :
    r.unread = outcome.handed ++ r'.unread := by
  unfold read at h
  split at h
  · obtain ⟨rfl, rfl⟩ := Prod.mk.inj h
    rfl
  · split at h
    · obtain ⟨rfl, rfl⟩ := Prod.mk.inj h
      rfl
    · obtain ⟨rfl, rfl⟩ := Prod.mk.inj h
      exact (List.take_append_drop _ _).symm

/-- Filling takes what it fetches off the front. -/
theorem unread_fill (wanted : Nat) (r : Reader) :
    r.unread = (r.fill wanted).1 ++ (r.fill wanted).2.2.unread := by
  fun_induction fill wanted r with
  | case1 => rfl
  | case2 _ r _ r' h ih =>
    rw [← ih]
    exact unread_read h
  | case3 _ r _ e r' h => exact unread_read h
  | case4 _ r _ r' h => exact unread_read h
  | case5 _ r _ bs r' h _ more stop r'' hfill ih =>
    rw [hfill] at ih
    rw [unread_read h, ih, List.append_assoc]
    rfl

/-- A call counts what it hands out. -/
theorem delivered_read {asked : Nat} {outcome : ReadOutcome} (h : r.read asked = (outcome, r')) :
    r'.delivered = r.delivered + outcome.handed.length := by
  unfold read at h
  split at h
  · obtain ⟨rfl, rfl⟩ := Prod.mk.inj h
    rfl
  · split at h
    · obtain ⟨rfl, rfl⟩ := Prod.mk.inj h
      rfl
    · obtain ⟨rfl, rfl⟩ := Prod.mk.inj h
      simp only [ReadOutcome.handed, List.length_take]
      omega

/-- Filling counts what it fetches. -/
theorem delivered_fill (wanted : Nat) (r : Reader) :
    (r.fill wanted).2.2.delivered = r.delivered + (r.fill wanted).1.length := by
  fun_induction fill wanted r with
  | case1 => rfl
  | case2 _ r _ r' h ih =>
    rw [ih, delivered_read h]
    rfl
  | case3 _ r _ e r' h => exact delivered_read h
  | case4 _ r _ r' h => exact delivered_read h
  | case5 _ r _ bs r' h _ more stop r'' hfill ih =>
    rw [hfill] at ih
    simp only at ih ⊢
    rw [ih, delivered_read h, List.length_append, ← Nat.add_assoc]
    rfl

/-- **`w` was handed out between two states of a reader**: it stood in front, and is counted. -/
structure HandsOut (r : Reader) (w : Bytes) (r' : Reader) : Prop where
  unread : r.unread = w ++ r'.unread
  delivered : r'.delivered = r.delivered + w.length

theorem HandsOut.refl (r : Reader) : r.HandsOut [] r := ⟨rfl, rfl⟩

theorem HandsOut.trans {r₁ r₂ r₃ : Reader} {w₁ w₂ : Bytes} (h₁ : r₁.HandsOut w₁ r₂)
    (h₂ : r₂.HandsOut w₂ r₃) : r₁.HandsOut (w₁ ++ w₂) r₃ where
  unread := by rw [h₁.unread, h₂.unread, List.append_assoc]
  delivered := by rw [h₂.delivered, h₁.delivered, List.length_append, Nat.add_assoc]

theorem handsOut_fill (wanted : Nat) (r : Reader) :
    r.HandsOut (r.fill wanted).1 (r.fill wanted).2.2 :=
  ⟨r.unread_fill wanted, r.delivered_fill wanted⟩

end Reader

namespace StreamSource

/-- The bytes that are still to come. -/
def unread (s : StreamSource) : Bytes := s.replay ++ s.reader.unread

variable {m s s' : StreamSource}

/-- What is delivered is the front of the bytes that are there, and all of them if the source
ends. -/
theorem Delivers.prefix_unread {d : Bytes} {failure : Option TransportError}
    (h : s.Delivers d failure) :
    d <+: s.unread ∧ (failure = none → d = s.unread) := by
  obtain ⟨fresh, rfl, hr⟩ := h
  obtain ⟨beyond, hu, hnone⟩ := hr.unread
  rw [unread, hu]
  refine ⟨⟨beyond, List.append_assoc _ _ _⟩, fun hfailure => ?_⟩
  rw [hnone hfailure, List.append_nil]

/-- **Fetching takes bytes off the front**, and touches nothing but the queue and the reader. -/
theorem fetch_cases (n : Nat) (s : StreamSource) :
    ∃ field stop replay reader, s.fetch n = (field, stop, { s with replay, reader }) ∧
      s.unread = field ++ (replay ++ reader.unread) := by
  refine ⟨_, _, _, _, rfl, ?_⟩
  have hfill := s.reader.unread_fill (n - (s.replay.take n).length)
  rcases Nat.lt_or_ge s.replay.length n with hshort | hlong
  · -- the queue is emptied, and the reader goes on
    have hall : s.replay.take n = s.replay := List.take_of_length_le (by omega)
    have hnone : s.replay.drop n = [] := List.drop_of_length_le (by omega)
    rw [hall] at hfill
    rw [hall, hnone, List.nil_append, List.append_assoc, ← hfill]
    rfl
  · -- the queue is long enough, and the reader is not called
    have hzero : n - (s.replay.take n).length = 0 := by
      rw [List.length_take]
      omega
    have hidle : s.reader.fill 0 = ([], .full, s.reader) := by
      rw [Reader.fill, dif_pos rfl]
    rw [hzero, hidle, List.append_nil, ← List.append_assoc, List.take_append_drop]
    rfl

/-- With an empty queue the reader is filled from, and nothing else happens. -/
theorem fetch_of_nil (hq : s.replay = []) (n : Nat) :
    s.fetch n = ((s.reader.fill n).1, (s.reader.fill n).2.1,
      { s with reader := (s.reader.fill n).2.2 }) := by
  simp [fetch, hq]

/-- What a field that is not complete has taken with it. -/
def lost (n : Nat) (s : StreamSource) : Bytes :=
  match s.fetch n with
  | (_, .full, _) => []
  | (field, _, _) => field

/-- **A field is served, or what was fetched of it is lost.** -/
theorem take_cases (n : Nat) (s : StreamSource) :
    ∃ field replay reader, s.unread = field ++ (replay ++ reader.unread) ∧
      (take n s = .ok field (({ s with replay, reader } : StreamSource).serve field) ∧
          s.lost n = [] ∨
        (∃ e, take n s = .error e { s with replay, reader }) ∧ s.lost n = field) := by
  obtain ⟨field, stop, replay, reader, hf, hu⟩ := s.fetch_cases n
  refine ⟨field, replay, reader, hu, ?_⟩
  unfold take lost
  rw [hf]
  cases stop with
  | full => exact Or.inl ⟨rfl, rfl⟩
  | ended => exact Or.inr ⟨⟨_, rfl⟩, rfl⟩
  | failed e => exact Or.inr ⟨⟨_, rfl⟩, rfl⟩

/-- Serving a field moves no byte that is still to come. -/
@[simp] theorem unread_serve (field : Bytes) (s : StreamSource) :
    (s.serve field).unread = s.unread := by
  unfold serve
  split <;> rfl

@[simp] theorem replay_serve (field : Bytes) (s : StreamSource) :
    (s.serve field).replay = s.replay := by
  unfold serve
  split <;> rfl

@[simp] theorem reader_serve (field : Bytes) (s : StreamSource) :
    (s.serve field).reader = s.reader := by
  unfold serve
  split <;> rfl

@[simp] theorem marked_serve (field : Bytes) (s : StreamSource) :
    (s.serve field).marked = s.marked := by
  unfold serve
  split <;> rfl

theorem serve_of_marked (hm : s.marked = true) (field : Bytes) :
    s.serve field =
      { s with
        lookback :=
          if s.lookback.length + field.length ≤ markerWidth then s.lookback ++ field
          else s.lookback
        sinceMark := s.sinceMark + field.length
        consumed := s.consumed + field.length } := by
  simp only [serve, hm, if_true]

/-- **A piece is taken off the front and counted**, and the books of the mark do not see it. -/
theorem read_cases (asked : Nat) (s : StreamSource) :
    ∃ outcome replay reader,
      s.read asked =
          (outcome, { s with replay, reader, consumed := s.consumed + outcome.handed.length }) ∧
        s.unread = outcome.handed ++ (replay ++ reader.unread) := by
  unfold read
  split
  · exact ⟨.bytes [], s.replay, s.reader, rfl, rfl⟩
  · split
    · refine ⟨.bytes (s.replay.take asked), s.replay.drop asked, s.reader, rfl, ?_⟩
      show s.replay ++ s.reader.unread =
        s.replay.take asked ++ (s.replay.drop asked ++ s.reader.unread)
      rw [← List.append_assoc, List.take_append_drop]
    · rename_i hempty
      have hnil : s.replay = [] := not_not.mp hempty
      have hunread : s.unread = s.reader.unread := by rw [unread, hnil, List.nil_append]
      split
      · rename_i bs reader hread
        exact ⟨.bytes bs, s.replay, reader, rfl, by
          rw [hunread, hnil, List.nil_append]
          exact Reader.unread_read hread⟩
      · rename_i outcome reader hnone hread
        have hhanded : outcome.handed = [] := by
          cases outcome with
          | bytes bs => exact (hnone bs rfl).elim
          | interrupted => rfl
          | failed e => rfl
        refine ⟨outcome, s.replay, reader, ?_, ?_⟩
        · rw [hhanded]
          rfl
        · rw [hunread, hnil, List.nil_append]
          exact Reader.unread_read hread

/-- **Going back is refused**, and changes nothing. -/
def RefusesRewind (s : StreamSource) : Prop :=
  rewind s = .error (.encoding (.rewindUnsupported s.sinceMark markerWidth)) s

theorem refusesRewind_of_unmarked (h : s.marked = false) : s.RefusesRewind := by
  rw [RefusesRewind, rewind, if_pos (Or.inl (by rw [h]; rfl))]

theorem refusesRewind_of_far (h : markerWidth < s.sinceMark) : s.RefusesRewind := by
  rw [RefusesRewind, rewind, if_pos (Or.inr h)]

/-- The source that going back leaves, when it is not refused. -/
def backed (s : StreamSource) : StreamSource :=
  { s with
    replay := s.lookback ++ s.replay, lookback := []
    consumed := s.consumed - s.sinceMark, sinceMark := 0 }

@[simp] theorem unread_backed (s : StreamSource) : s.backed.unread = s.lookback ++ s.unread :=
  List.append_assoc _ _ _

theorem rewind_of_near (hm : s.marked = true) (h : s.sinceMark ≤ markerWidth) :
    rewind s = .ok () s.backed := by
  have hno : ¬((!s.marked) = true ∨ markerWidth < s.sinceMark) := by
    rw [hm]
    simp only [Bool.not_true, Bool.false_eq_true, false_or]
    omega
  rw [rewind, if_neg hno]
  rfl

/-- Going back is refused or done. -/
theorem rewind_cases (s : StreamSource) : s.RefusesRewind ∨ rewind s = .ok () s.backed := by
  cases hm : s.marked with
  | false => exact Or.inl (refusesRewind_of_unmarked hm)
  | true =>
    rcases Nat.lt_or_ge markerWidth s.sinceMark with hfar | hnear
    · exact Or.inl (refusesRewind_of_far hfar)
    · exact Or.inr (rewind_of_near hm hnear)

/-! ## 2. Calls -/

/-- What can be asked of a stream source. -/
inductive Call where
  /-- A field of so many bytes. -/
  | field (n : Nat)
  /-- At most so many bytes, as they come. -/
  | read (asked : Nat)
  | mark
  | rewind
  deriving DecidableEq, Repr

namespace Call

/-- The source that a call leaves, whether it ends well or fails. -/
def after (s : StreamSource) : Call → StreamSource
  | .field n => leftBy (take n s)
  | .read asked => (s.read asked).2
  | .mark => s.mark
  | .rewind => leftBy (StreamSource.rewind s)

/-- What a call hands out that is not a field. -/
def passed (s : StreamSource) : Call → Bytes
  | .read asked => (s.read asked).1.handed
  | .field _ | .mark | .rewind => []

/-- What a call takes and hands out to nobody. -/
def dropped (s : StreamSource) : Call → Bytes
  | .field n => s.lost n
  | .read _ | .mark | .rewind => []

/-- Only a mark sets a mark. -/
theorem marked_after {c : Call} (hc : c ≠ .mark) : (c.after s).marked = s.marked := by
  cases c with
  | field n =>
    obtain ⟨field, replay, reader, -, ⟨htake, -⟩ | ⟨⟨e, htake⟩, -⟩⟩ := s.take_cases n
    · simp [after, htake]
    · rw [after, htake]
      rfl
  | read asked =>
    obtain ⟨outcome, replay, reader, hread, -⟩ := s.read_cases asked
    rw [after, hread]
  | mark => exact absurd rfl hc
  | rewind =>
    rw [after]
    rcases s.rewind_cases with hrefused | hdone
    · rw [hrefused]
      rfl
    · rw [hdone]
      rfl

end Call

/-- The source after a sequence of calls. -/
def after (calls : List Call) (s : StreamSource) : StreamSource := calls.foldl Call.after s

/-- Something of every call of a sequence, one behind the other. -/
def gather (f : StreamSource → Call → Bytes) : List Call → StreamSource → Bytes
  | [], _ => []
  | c :: calls, s => f s c ++ gather f calls (c.after s)

/-- Without a mark among them, calls leave an unmarked source unmarked. -/
theorem marked_after {calls : List Call} (h : Call.mark ∉ calls) (s : StreamSource) :
    (s.after calls).marked = s.marked := by
  induction calls generalizing s with
  | nil => rfl
  | cons c calls ih =>
    rw [List.mem_cons, not_or] at h
    have hc := Call.marked_after (s := s) (Ne.symm h.1)
    rw [← hc]
    exact ih h.2 (c.after s)

/-! ## 3. Since the mark -/

/-- **Where the bytes are that were to come at the mark**: remembered, still to come, passed on or
dropped.  The record is only good as long as going back is not refused anyway. -/
structure Since (m : StreamSource) (passed dropped : Bytes) (s : StreamSource) : Prop where
  marked : s.marked = true
  consumed : s.consumed = m.consumed + passed.length + s.sinceMark
  length_lookback : s.sinceMark ≤ markerWidth → s.lookback.length = s.sinceMark
  order : s.sinceMark ≤ markerWidth → (s.lookback ++ s.unread).Sublist m.unread
  all : s.sinceMark ≤ markerWidth → (s.lookback ++ s.unread ++ passed ++ dropped).Perm m.unread

namespace Since

variable {passed dropped : Bytes}

/-- At the mark. -/
theorem mark (m : StreamSource) : Since m [] [] m.mark where
  marked := rfl
  consumed := rfl
  length_lookback _ := rfl
  order _ := List.Sublist.refl _
  all _ := by
    rw [List.append_nil, List.append_nil]
    exact List.Perm.refl _

/-- A field that is complete is remembered: as long as there is room, the record and what is to come
are what they were, cut elsewhere. -/
theorem serve (h : Since m passed dropped s) {field replay : Bytes} {reader : Reader}
    (hu : s.unread = field ++ (replay ++ reader.unread)) :
    Since m passed dropped (({ s with replay, reader } : StreamSource).serve field) := by
  obtain ⟨s', hs'⟩ : ∃ s', s' = ({ s with replay, reader } : StreamSource).serve field := ⟨_, rfl⟩
  have hserve := serve_of_marked (s := { s with replay, reader }) h.marked field
  rw [← hs'] at hserve ⊢
  have hsince : s'.sinceMark = s.sinceMark + field.length := by rw [hserve]
  have hconsumed : s'.consumed = s.consumed + field.length := by rw [hserve]
  have hunread : s'.unread = replay ++ reader.unread := by
    simp [hs', unread]
  have hnear : s'.sinceMark ≤ markerWidth → s.sinceMark ≤ markerWidth := by
    intro hw
    omega
  have hlookback : s'.sinceMark ≤ markerWidth → s'.lookback = s.lookback ++ field := by
    intro hw
    have hroom : s.lookback.length + field.length ≤ markerWidth := by
      rw [h.length_lookback (hnear hw)]
      omega
    rw [hserve]
    exact if_pos hroom
  have hsame : s'.sinceMark ≤ markerWidth →
      s'.lookback ++ s'.unread = s.lookback ++ s.unread := by
    intro hw
    rw [hlookback hw, hunread, hu, List.append_assoc]
  refine ⟨?_, ?_, ?_, ?_, ?_⟩
  · rw [hserve]
    exact h.marked
  · have hbefore := h.consumed
    omega
  · intro hw
    rw [hlookback hw, List.length_append, h.length_lookback (hnear hw), hsince]
  · intro hw
    rw [hsame hw]
    exact h.order (hnear hw)
  · intro hw
    rw [hsame hw]
    exact h.all (hnear hw)

/-- What is taken off the front and not remembered is missing from then on, and has to be among what
is passed on or dropped. -/
theorem skip (h : Since m passed dropped s) {gone replay : Bytes} {reader : Reader}
    (hu : s.unread = gone ++ (replay ++ reader.unread)) (passed' dropped' : Bytes)
    (hmoved : ∀ b, passed'.count b + dropped'.count b =
      passed.count b + dropped.count b + gone.count b) :
    (s.sinceMark ≤ markerWidth → (s.lookback ++ (replay ++ reader.unread)).Sublist m.unread) ∧
      (s.sinceMark ≤ markerWidth →
        (s.lookback ++ (replay ++ reader.unread) ++ passed' ++ dropped').Perm m.unread) := by
  constructor
  · intro hw
    have horder := h.order hw
    rw [hu] at horder
    exact ((List.sublist_append_right gone _).append_left s.lookback).trans horder
  · intro hw
    have hall := h.all hw
    rw [hu] at hall
    refine List.Perm.trans (List.perm_iff_count.mpr ?_) hall
    intro b
    have hb := hmoved b
    simp only [List.count_append]
    omega

/-- Going back brings up what is remembered. -/
theorem backed (h : Since m passed dropped s) (hnear : s.sinceMark ≤ markerWidth) :
    Since m passed dropped s.backed where
  marked := h.marked
  consumed := by
    have hconsumed := h.consumed
    simp only [StreamSource.backed]
    omega
  length_lookback _ := rfl
  order _ := by
    rw [unread_backed]
    exact h.order hnear
  all _ := by
    rw [unread_backed]
    exact h.all hnear

/-- **What every call other than a mark keeps.** -/
theorem call (h : Since m passed dropped s) {c : Call} (hc : c ≠ .mark) :
    Since m (passed ++ c.passed s) (dropped ++ c.dropped s) (c.after s) := by
  cases c with
  | field n =>
    obtain ⟨field, replay, reader, hu, ⟨htake, hlost⟩ | ⟨⟨e, htake⟩, hlost⟩⟩ := s.take_cases n
    · rw [Call.after, Call.passed, Call.dropped, htake, hlost, List.append_nil, List.append_nil]
      exact h.serve hu
    · rw [Call.after, Call.passed, Call.dropped, htake, hlost, List.append_nil]
      obtain ⟨horder, hall⟩ := h.skip hu passed (dropped ++ field) fun b => by
        rw [List.count_append, Nat.add_assoc]
      exact ⟨h.marked, h.consumed, h.length_lookback, horder, hall⟩
  | read asked =>
    obtain ⟨outcome, replay, reader, hread, hu⟩ := s.read_cases asked
    rw [Call.after, Call.passed, Call.dropped, hread, List.append_nil]
    obtain ⟨horder, hall⟩ := h.skip hu (passed ++ outcome.handed) dropped fun b => by
      rw [List.count_append, Nat.add_right_comm]
    refine ⟨h.marked, ?_, h.length_lookback, horder, hall⟩
    have hconsumed := h.consumed
    rw [List.length_append]
    simp only
    omega
  | mark => exact absurd rfl hc
  | rewind =>
    rw [Call.after, Call.passed, Call.dropped, List.append_nil, List.append_nil]
    rcases Nat.lt_or_ge markerWidth s.sinceMark with hfar | hnear
    · rw [refusesRewind_of_far hfar]
      exact h
    · rw [rewind_of_near h.marked hnear]
      exact h.backed hnear

/-- **What every sequence of such calls keeps.** -/
theorem calls (h : Since m passed dropped s) {calls : List Call} (hc : Call.mark ∉ calls) :
    Since m (passed ++ gather Call.passed calls s) (dropped ++ gather Call.dropped calls s)
      (s.after calls) := by
  induction calls generalizing s passed dropped with
  | nil =>
    rw [gather, gather, List.append_nil, List.append_nil]
    exact h
  | cons c calls ih =>
    rw [List.mem_cons, not_or] at hc
    have hrest := ih (h.call (Ne.symm hc.1)) hc.2
    rw [List.append_assoc, List.append_assoc] at hrest
    exact hrest

end Since

/-! ## 4. Back at the mark, or not -/

/-- A source stands where another one stood: the same bytes are to come, and as many are counted. -/
def BackAt (m s : StreamSource) : Prop := s.unread = m.unread ∧ s.consumed = m.consumed

/-- **Going back, after any calls since the mark.**

* Without a mark it is refused, and so it is when more than the marker's width was served in fields;
  the source is left as it was.
* Otherwise it is done.  What is to come then is what was to come at the mark, in its order, without
  the bytes that were passed on by `read` and those that incomplete fields dropped; and the former
  are still counted.
* So the source stands at the mark again *if and only if* nothing was passed on or dropped. -/
theorem rewind_since_mark (m : StreamSource) (calls : List Call) (hlast : Call.mark ∉ calls) :
    (m.marked = false → (m.after calls).RefusesRewind) ∧
      (markerWidth < (m.mark.after calls).sinceMark → (m.mark.after calls).RefusesRewind) ∧
      ((m.mark.after calls).sinceMark ≤ markerWidth →
        ∃ s', rewind (m.mark.after calls) = .ok () s' ∧
          s'.unread.Sublist m.unread ∧
          (s'.unread ++ gather Call.passed calls m.mark ++
            gather Call.dropped calls m.mark).Perm m.unread ∧
          s'.consumed = m.consumed + (gather Call.passed calls m.mark).length ∧
          (BackAt m s' ↔
            gather Call.passed calls m.mark = [] ∧ gather Call.dropped calls m.mark = [])) := by
  refine ⟨?_, refusesRewind_of_far, ?_⟩
  · intro hm
    exact refusesRewind_of_unmarked ((marked_after hlast m).trans hm)
  · intro hnear
    have hsince := (Since.mark m).calls hlast
    rw [List.nil_append, List.nil_append] at hsince
    obtain ⟨passed, hpassed⟩ : ∃ p, gather Call.passed calls m.mark = p := ⟨_, rfl⟩
    obtain ⟨dropped, hdropped⟩ : ∃ l, gather Call.dropped calls m.mark = l := ⟨_, rfl⟩
    rw [hpassed, hdropped] at hsince ⊢
    have hback := hsince.backed hnear
    obtain ⟨s', hs'⟩ : ∃ s', s' = (m.mark.after calls).backed := ⟨_, rfl⟩
    have horder : s'.unread.Sublist m.unread := by
      rw [hs']
      exact hback.order (Nat.zero_le _)
    have hall : (s'.unread ++ passed ++ dropped).Perm m.unread := by
      rw [hs']
      exact hback.all (Nat.zero_le _)
    have hconsumed : s'.consumed = m.consumed + passed.length := by
      rw [hs']
      exact hback.consumed
    refine ⟨s', ?_, horder, hall, hconsumed, ?_⟩
    · rw [hs']
      exact rewind_of_near hsince.marked hnear
    have hlength := hall.length_eq
    rw [List.length_append, List.length_append] at hlength
    -- what is missing is missing from the number of bytes
    constructor
    · rintro ⟨hunread, -⟩
      have hsame := congrArg List.length hunread
      constructor
      · exact List.length_eq_zero_iff.mp (by omega)
      · exact List.length_eq_zero_iff.mp (by omega)
    · rintro ⟨rfl, rfl⟩
      rw [List.append_nil, List.append_nil] at hall
      exact ⟨horder.eq_of_length hall.length_eq, hconsumed⟩

/-- A marker that is looked at, put back and looked at again in part: the source stands at its mark
again. -/
theorem rewind_since_mark_marker :
    ∃ s', rewind ((ofReader { unread := [9, 8, 7, 6, 5, 4] }).mark.after
        [.field 4, .rewind, .field 3]) = .ok () s' ∧
      BackAt (ofReader { unread := [9, 8, 7, 6, 5, 4] }) s' := by
  obtain ⟨-, -, hdone⟩ := rewind_since_mark (ofReader { unread := [9, 8, 7, 6, 5, 4] })
    [.field 4, .rewind, .field 3] (by decide)
  obtain ⟨s', hs', -, -, -, hback⟩ := hdone (by
    simp [StreamSource.after, Call.after, take, fetch, Reader.fill, Reader.read, serve, mark,
      ofReader, leftBy, rewind, markerWidth])
  refine ⟨s', hs', hback.mpr ⟨?_, ?_⟩⟩
  · rfl
  · simp [gather, Call.dropped, Call.after, lost, take, fetch, Reader.fill, Reader.read, serve,
      mark, ofReader, leftBy, rewind, markerWidth]

/-- One byte in a field and one by `read`, and the attempt to go back takes the source to a place it
was never at: the second byte is missing, and one byte too many is counted. -/
theorem rewind_after_read :
    ¬ ∀ (reader : Reader) (calls : List Call), Call.mark ∉ calls →
      ∀ s', rewind ((ofReader reader).mark.after calls) = .ok () s' →
        BackAt (ofReader reader) s' := by
  intro hall
  have h := hall { unread := [1, 2, 3, 4, 5, 6] } [.field 1, .read 1] (by decide)
  have hrewind : ∃ s', rewind ((ofReader { unread := [1, 2, 3, 4, 5, 6] }).mark.after
      [.field 1, .read 1]) = .ok () s' ∧ s'.unread = [1, 3, 4, 5, 6] := by
    simp [StreamSource.after, Call.after, take, fetch, Reader.fill, Reader.read, read, serve,
      mark, ofReader, leftBy, rewind, markerWidth, unread]
  obtain ⟨s', hs', hunread⟩ := hrewind
  have hback := (h s' hs').1
  rw [hunread] at hback
  exact absurd hback (by decide)

end StreamSource

end Envelope

/-
# Reading from memory and from a stream

The two kinds of source keep entirely different books.  Memory is a place in a byte string; a stream
is a queue of bytes to be served again, a reader, and a short record of what was served since the
mark.  This module says what each operation of either does, in terms of the bytes that are still to
come, and that the two agree.

**The invariant: `Follows`.**  A stream source follows a memory source when the bytes still to come
from it are the memory's unread bytes, both have consumed as much, and what the stream remembers
since its mark is what stands in memory between the mark and the place.  The last part is what makes
going back possible, and it is only asked for as long as no more than the marker's width was served:
beyond that the stream refuses to go back, and the record may be anything.

**What does not agree, and why it cannot.**  A field that is not complete leaves memory where it is
and takes the stream's last bytes with it, so after a failure the two part.  And a stream whose
reader fails reports the failure where memory reports that bytes are missing (`Failure.atEnd`);
every other failure is the same on both.
-/
import Envelope.Proofs.Reader
import Envelope.Proofs.Run
import Envelope.Source.Memory
import Envelope.Source.Stream

namespace Envelope

/-- A failure found on complete data, as it shows where the data ends with `failure`: only missing
bytes look different. -/
def Failure.atEnd (failure : Option TransportError) : Failure → Failure
  | .encoding (.truncated wanted) =>
    match failure with
    | none => .truncated wanted
    | some e => .transport e
  | e => e

/-- A reader that ends cleanly changes no failure. -/
theorem Failure.atEnd_none (e : Failure) : e.atEnd none = e := by
  unfold Failure.atEnd
  split <;> rfl

/-! ## 1. Memory -/

namespace MemorySource

/-- The place `n` bytes further on. -/
def advance (n : Nat) (m : MemorySource) : MemorySource := { m with position := m.position + n }

@[simp] theorem unread_advance (n : Nat) (m : MemorySource) :
    (m.advance n).unread = m.unread.drop n := by
  simp only [unread, advance, List.drop_drop]

theorem take_of_le {n : Nat} {m : MemorySource} (h : n ≤ m.unread.length) :
    take n m = .ok (m.unread.take n) (m.advance n) := by
  unfold take
  rw [if_neg (by omega)]
  rfl

theorem take_of_lt {n : Nat} {m : MemorySource} (h : m.unread.length < n) :
    take n m = .error (.truncated (n - m.unread.length)) m := by
  unfold take
  rw [if_pos h]

/-- **A field that is read is the front of the unread bytes.** -/
theorem take_eq_ok {n : Nat} {m m' : MemorySource} {w : Bytes} :
    take n m = .ok w m' ↔ w.length = n ∧ m.unread = w ++ m'.unread ∧ m' = m.advance n := by
  constructor
  · intro h
    rcases Nat.lt_or_ge m.unread.length n with hlt | hle
    · rw [take_of_lt hlt] at h; exact absurd h (by simp)
    · rw [take_of_le hle, EStateM.Result.ok.injEq] at h
      obtain ⟨rfl, rfl⟩ := h
      refine ⟨by rw [List.length_take]; omega, ?_, rfl⟩
      rw [unread_advance, List.take_append_drop]
  · rintro ⟨hl, hu, rfl⟩
    rw [unread_advance] at hu
    have hle : n ≤ m.unread.length := by rw [hu, List.length_append]; omega
    have hw : w = m.unread.take n := by
      rw [hu, ← hl, List.take_left]
    rw [take_of_le hle, ← hw]

end MemorySource

/-! ## 2. Streams -/

namespace StreamSource

/-- **The bytes to come from a stream source are `d`**: first those that are served again, then what
the reader delivers. -/
def Delivers (s : StreamSource) (d : Bytes) (failure : Option TransportError) : Prop :=
  ∃ fresh, d = s.replay ++ fresh ∧ s.reader.Delivers fresh failure

variable {s : StreamSource} {d : Bytes} {failure : Option TransportError}

/-- A source at the beginning of a reader delivers what the reader does. -/
theorem delivers_ofReader {r : Reader} (h : r.Delivers d failure) :
    (ofReader r).Delivers d failure := ⟨d, rfl, h⟩

/-- **Fetching takes the front of what is to come**, across the border between queue and reader. -/
theorem Delivers.fetch (h : s.Delivers d failure) (n : Nat) :
    ∃ replay reader, s.fetch n = (d.take n, .after n d failure, { s with replay, reader }) ∧
      ({ s with replay, reader } : StreamSource).Delivers (d.drop n) failure := by
  obtain ⟨fresh, rfl, hr⟩ := h
  obtain ⟨reader, hfill, hd⟩ := hr.fill (n - (s.replay.take n).length)
  have hrest : n - (s.replay.take n).length = n - s.replay.length := by
    rw [List.length_take]; omega
  refine ⟨s.replay.drop n, reader, ?_, fresh.drop (n - s.replay.length), ?_, ?_⟩
  · have hstop : Stop.after (n - s.replay.length) fresh failure
        = Stop.after n (s.replay ++ fresh) failure := by
      simp only [Stop.after, List.length_append, Nat.sub_le_iff_le_add']
    simp only [StreamSource.fetch, hfill]
    rw [hrest, hstop, List.take_append]
  · rw [List.drop_append]
  · rw [← hrest]; exact hd

/-- Where nothing is to come but the end, nothing is left. -/
theorem Delivers.left_eq_zero (h : s.Delivers [] none) : s.left = 0 := by
  obtain ⟨fresh, hempty, hr⟩ := h
  obtain ⟨hreplay, rfl⟩ := List.append_eq_nil_iff.mp hempty.symm
  obtain ⟨beyond, hunread, hnone⟩ := hr.unread
  rw [left, hreplay, hunread, hnone rfl]
  rfl

/-- **What asking for a piece can come to**: the end of the source, its failure, or a piece off the
front of what is to come. -/
theorem Delivers.piece_cases (h : s.Delivers d failure) {n : Nat} (hn : 0 < n) :
    (∃ s', d = [] ∧ failure = none ∧ s.piece n = (.ok [], s') ∧ s'.left = 0) ∨
      (∃ e s', failure = some e ∧ s.piece n = (.error e, s')) ∨
      ∃ s', d ≠ [] ∧ d.take n ≠ [] ∧ s.piece n = (.ok (d.take n), s') ∧
        s'.Delivers (d.drop n) failure := by
  obtain ⟨replay, reader, hf, hd⟩ := h.fetch n
  have hfront : d ≠ [] → d.take n ≠ [] := by
    intro hne hempty
    rcases List.take_eq_nil_iff.mp hempty with hzero | hnil
    · omega
    · exact hne hnil
  unfold StreamSource.piece
  rw [hf]
  by_cases hle : n ≤ d.length
  · have hs : Stop.after n d failure = .full := if_pos hle
    have hne : d ≠ [] := List.ne_nil_of_length_pos (by omega)
    rw [hs]
    exact Or.inr (Or.inr ⟨_, hne, hfront hne, rfl, hd⟩)
  · cases failure with
    | none =>
      have hs : Stop.after n d none = .ended := if_neg hle
      rw [hs]
      by_cases hnil : d = []
      · subst hnil
        rw [List.drop_nil] at hd
        rw [List.take_nil]
        exact Or.inl ⟨_, rfl, rfl, rfl, hd.left_eq_zero⟩
      · exact Or.inr (Or.inr ⟨_, hnil, hfront hnil, rfl, hd⟩)
    | some e =>
      have hs : Stop.after n d (some e) = .failed e := if_neg hle
      rw [hs]
      exact Or.inr (Or.inl ⟨e, _, rfl, rfl⟩)

/-- Serving a field changes what is remembered, not what is to come. -/
@[simp] theorem delivers_serve (field : Bytes) :
    (s.serve field).Delivers d failure ↔ s.Delivers d failure := by
  cases hm : s.marked <;> simp [serve, hm, Delivers]

end StreamSource

/-! ## 3. Side by side -/

/-- **A stream source that stands where a memory source stands.** -/
structure Follows (failure : Option TransportError) (m : MemorySource) (s : StreamSource) :
    Prop where
  inside : m.position ≤ m.bytes.length
  delivers : s.Delivers m.unread failure
  consumed : s.consumed = m.position
  sinceMark : s.marked = true → m.marked + s.sinceMark = m.position
  lookback : s.marked = true → s.sinceMark ≤ markerWidth →
    s.lookback = (m.bytes.drop m.marked).take s.sinceMark

namespace Follows

variable {failure : Option TransportError} {m : MemorySource} {s : StreamSource}

/-- At the beginning. -/
theorem ofReader {r : Reader} {d : Bytes} (h : r.Delivers d failure) :
    Follows failure (.ofBytes d) (.ofReader r) where
  inside := Nat.zero_le _
  delivers := StreamSource.delivers_ofReader h
  consumed := rfl
  sinceMark hm := absurd hm (by simp [StreamSource.ofReader])
  lookback hm := absurd hm (by simp [StreamSource.ofReader])

/-- What is remembered has as many bytes as were served. -/
theorem length_lookback (h : Follows failure m s) (hm : s.marked = true)
    (hw : s.sinceMark ≤ markerWidth) : s.lookback.length = s.sinceMark := by
  have h₁ := h.inside
  have h₂ := h.sinceMark hm
  rw [h.lookback hm hw, List.length_take, List.length_drop]
  omega

/-- The place in memory, counted from the mark. -/
theorem unread_eq (h : Follows failure m s) (hm : s.marked = true) :
    m.unread = (m.bytes.drop m.marked).drop s.sinceMark := by
  rw [MemorySource.unread, List.drop_drop, h.sinceMark hm]

/-- **Serving a field keeps the two together.** -/
theorem serve (h : Follows failure m s) {n : Nat} (hn : n ≤ m.unread.length)
    {replay : Bytes} {reader : Reader}
    (hd : ({ s with replay, reader } : StreamSource).Delivers (m.unread.drop n) failure) :
    Follows failure (m.advance n)
      (({ s with replay, reader } : StreamSource).serve (m.unread.take n)) := by
  have hlen : (m.unread.take n).length = n := by rw [List.length_take]; omega
  have hin := h.inside
  have hun : m.unread.length = m.bytes.length - m.position := by
    rw [MemorySource.unread, List.length_drop]
  refine ⟨?_, ?_, ?_, ?_, ?_⟩
  · simp only [MemorySource.advance]; omega
  · rw [StreamSource.delivers_serve, MemorySource.unread_advance]; exact hd
  · simp only [StreamSource.serve, MemorySource.advance, hlen]
    split <;> rw [← h.consumed]
  · intro hm
    have hm' : s.marked = true := by cases hs : s.marked <;> simp [StreamSource.serve, hs] at hm ⊢
    have hs := h.sinceMark hm'
    simp only [StreamSource.serve, hm', if_true, MemorySource.advance, hlen]
    omega
  · intro hm hw
    have hm' : s.marked = true := by cases hs : s.marked <;> simp [StreamSource.serve, hs] at hm ⊢
    simp only [StreamSource.serve, hm', if_true, MemorySource.advance, hlen] at hw ⊢
    have hsmall : s.sinceMark ≤ markerWidth := by omega
    rw [h.length_lookback hm' hsmall, if_pos hw, List.take_add, h.lookback hm' hsmall,
      h.unread_eq hm']

/-- What a field leaves on a stream besides the field: a longer way back to the mark. -/
def Served (n : Nat) (before after : StreamSource) : Prop :=
  after.marked = before.marked ∧ (before.marked = true → after.sinceMark = before.sinceMark + n)

/-- **A field reads the same from both**, and when there is not enough, both say how much is
missing; unless the reader has failed, which is then said instead. -/
theorem take (h : Follows failure m s) (n : Nat) :
    Alike (fun w w' m' s' => w' = w ∧ Follows failure m' s' ∧ Served n s s')
      (fun e e' m' s' => e' = e.atEnd failure ∧ s'.consumed = m'.position)
      (MemorySource.take n m) (StreamSource.take n s) := by
  obtain ⟨replay, reader, hf, hd⟩ := h.delivers.fetch n
  rcases Nat.lt_or_ge m.unread.length n with hlt | hle
  · rw [MemorySource.take_of_lt hlt]
    unfold StreamSource.take
    cases failure with
    | none =>
      have hstop : Stop.after n m.unread none = .ended := by rw [Stop.after, if_neg (by omega)]
      rw [hf, hstop]
      exact ⟨by rw [List.take_of_length_le (by omega)]; rfl, h.consumed⟩
    | some e =>
      have hstop : Stop.after n m.unread (some e) = .failed e := by
        rw [Stop.after, if_neg (by omega)]
      rw [hf, hstop]
      exact ⟨rfl, h.consumed⟩
  · have hstop : Stop.after n m.unread failure = .full := by unfold Stop.after; rw [if_pos hle]
    have hlen : (m.unread.take n).length = n := by rw [List.length_take]; omega
    rw [MemorySource.take_of_le hle]
    unfold StreamSource.take
    rw [hf, hstop]
    refine ⟨rfl, h.serve hle hd, ?_, ?_⟩
    · simp only [StreamSource.serve]
      split <;> rfl
    · intro hm
      simp [StreamSource.serve, hm, hlen]

/-- Marking keeps the two together, and the way back is short again. -/
theorem mark (h : Follows failure m s) :
    Follows failure { m with marked := m.position } s.mark where
  inside := h.inside
  delivers := h.delivers
  consumed := h.consumed
  sinceMark _ := by simp [StreamSource.mark]
  lookback _ _ := by simp [StreamSource.mark]

/-- **Going back takes both to the mark**, if it is not too far. -/
theorem rewind (h : Follows failure m s) (hm : s.marked = true) (hw : s.sinceMark ≤ markerWidth) :
    ∃ s', StreamSource.rewind s = .ok () s' ∧
      Follows failure { m with position := m.marked } s' ∧ s'.marked = true ∧ s'.sinceMark = 0 := by
  have hin := h.inside
  have hs := h.sinceMark hm
  refine ⟨{ s with
      replay := s.lookback ++ s.replay, lookback := []
      consumed := s.consumed - s.sinceMark, sinceMark := 0 }, ?_, ⟨?_, ?_, ?_, ?_, ?_⟩, hm, rfl⟩
  · unfold StreamSource.rewind
    rw [if_neg (by simp [hm]; omega)]
  · simp only; omega
  · obtain ⟨fresh, hf, hr⟩ := h.delivers
    refine ⟨fresh, ?_, hr⟩
    -- the bytes since the mark, then the bytes from the place on
    rw [List.append_assoc, ← hf, h.lookback hm hw, h.unread_eq hm, List.take_append_drop]
    rfl
  · have hc := h.consumed
    simp only
    omega
  · intro _
    rfl
  · intro _ _
    rw [List.take_zero]

end Follows

end Envelope

/-
# Reading from a stream

A stream cannot go back, so what is served in fields after a mark is remembered, up to the width of
the version marker; going back puts it into a queue that is served again before anything new is
read.  More than that cannot be taken back, and the attempt fails and changes nothing.

The same source later delivers the body, in pieces of any length.  Such a piece is *not* remembered:
it counts as consumed, but a mark does not see it.

A field that is not complete is lost, together with what the reader had delivered of it; only the
count of consumed bytes stays as it was.
-/
import Envelope.Source
import Envelope.Transport.Reader
import Envelope.Transport.Room

namespace Envelope

/-- A reader, with the bytes that are served before it is asked again. -/
structure StreamSource where
  reader : Reader
  /-- Taken back, and to be served again. -/
  replay : Bytes := []
  /-- Served in fields since the mark, as long as the marker's width is not exceeded. -/
  lookback : Bytes := []
  marked : Bool := false
  /-- The number of bytes served in fields since the mark. -/
  sinceMark : Nat := 0
  consumed : Nat := 0

namespace StreamSource

/-- A source at the beginning of what a reader delivers. -/
def ofReader (reader : Reader) : StreamSource := { reader }

/-- Bytes from the queue first and then from the reader, until there are `n`. -/
def fetch (n : Nat) (s : StreamSource) : Bytes × Stop × StreamSource :=
  let served := s.replay.take n
  let (more, stop, reader) := s.reader.fill (n - served.length)
  (served ++ more, stop, { s with replay := s.replay.drop n, reader })

/-- The number of bytes that are left. -/
def left (s : StreamSource) : Nat := s.replay.length + s.reader.unread.length

/-- No byte is lost or invented by fetching. -/
theorem left_fetch (n : Nat) (s : StreamSource) :
    (s.fetch n).1.length + (s.fetch n).2.2.left = s.left := by
  have h := s.reader.length_fill (n - (s.replay.take n).length)
  simp only [fetch, left, List.length_append, List.length_take, List.length_drop] at h ⊢
  generalize s.reader.fill (n - min n s.replay.length) = filled at h ⊢
  obtain ⟨more, stop, reader⟩ := filled
  simp only at h ⊢
  omega

/-! ## 1. Fields -/

/-- The source after a field has been served. -/
def serve (field : Bytes) (s : StreamSource) : StreamSource :=
  let s :=
    if s.marked then
      { s with
        lookback :=
          if s.lookback.length + field.length ≤ markerWidth then s.lookback ++ field
          else s.lookback
        sinceMark := s.sinceMark + field.length }
    else s
  { s with consumed := s.consumed + field.length }

/-- **Exactly `n` bytes.**  A reader that ends too early has left the header truncated; one that
fails has failed. -/
def take (n : Nat) : EStateM Failure StreamSource Bytes := fun s =>
  match s.fetch n with
  | (field, .full, s) => .ok field (s.serve field)
  | (field, .ended, s) => .error (.truncated (n - field.length)) s
  | (_, .failed e, s) => .error (.transport e) s

/-- Remembers the place; what was served before it is forgotten. -/
def mark (s : StreamSource) : StreamSource :=
  { s with marked := true, lookback := [], sinceMark := 0 }

/-- **Back to the mark**, if there is one and no more than the marker's width was served since. -/
def rewind : EStateM Failure StreamSource Unit := fun s =>
  if !s.marked ∨ markerWidth < s.sinceMark then
    .error (.encoding (.rewindUnsupported s.sinceMark markerWidth)) s
  else
    .ok () { s with
      replay := s.lookback ++ s.replay, lookback := []
      consumed := s.consumed - s.sinceMark, sinceMark := 0 }

instance : Source StreamSource where
  take := take
  consumed s := s.consumed
  mark := mark
  rewind := rewind

/-! ## 2. Pieces -/

/-- One call that asks for at most `asked` bytes: from the queue if there are any, else from the
reader. -/
def read (asked : Nat) (s : StreamSource) : ReadOutcome × StreamSource :=
  if asked = 0 then (.bytes [], s)
  else if s.replay ≠ [] then
    let served := s.replay.take asked
    (.bytes served,
      { s with replay := s.replay.drop asked, consumed := s.consumed + served.length })
  else
    match s.reader.read asked with
    | (.bytes bs, reader) => (.bytes bs, { s with reader, consumed := s.consumed + bs.length })
    | (outcome, reader) => (outcome, { s with reader })

/-- **As much as there is, up to `n` bytes.**  Fewer mean that the stream has ended; what was read
before a failure is lost, but counts as consumed. -/
def piece (n : Nat) (s : StreamSource) : Except TransportError Bytes × StreamSource :=
  match s.fetch n with
  | (bs, .failed e, s) => (.error e, { s with consumed := s.consumed + bs.length })
  | (bs, _, s) => (.ok bs, { s with consumed := s.consumed + bs.length })

/-- **A piece takes its bytes off what is left.** -/
theorem left_piece {n : Nat} {s s' : StreamSource} {bs : Bytes}
    (h : s.piece n = (.ok bs, s')) : bs.length + s'.left = s.left := by
  have hl := s.left_fetch n
  unfold piece at h
  split at h
  · simp at h
  · rename_i hf
    rw [hf] at hl
    simp only [Prod.mk.injEq, Except.ok.injEq] at h
    obtain ⟨rfl, rfl⟩ := h
    exact hl

/-! ## 3. Everything that is left -/

/-- An interrupted call uses up an interruption and no bytes. -/
theorem left_read_interrupted {asked : Nat} {s s' : StreamSource}
    (h : s.read asked = (.interrupted, s')) :
    s'.left = s.left ∧ s'.reader.interruptsLeft < s.reader.interruptsLeft := by
  unfold read at h
  split at h
  · simp at h
  · split at h
    · simp at h
    · split at h
      · simp at h
      · rename_i outcome reader _ hr
        simp only [Prod.mk.injEq] at h
        obtain ⟨rfl, rfl⟩ := h
        obtain ⟨hu, hi⟩ := Reader.interruptsLeft_read hr
        exact ⟨by simp [left, hu], hi⟩

/-- **What a call hands out is taken off what is left.** -/
theorem left_read {asked : Nat} {s s' : StreamSource} {bs : Bytes}
    (h : s.read asked = (.bytes bs, s')) : bs.length + s'.left = s.left := by
  unfold read at h
  split at h
  · simp only [Prod.mk.injEq, ReadOutcome.bytes.injEq] at h
    obtain ⟨rfl, rfl⟩ := h
    simp
  · split at h
    · simp only [Prod.mk.injEq, ReadOutcome.bytes.injEq] at h
      obtain ⟨rfl, rfl⟩ := h
      simp only [left, List.length_take, List.length_drop]
      omega
    · split at h
      · rename_i bs' reader hr
        simp only [Prod.mk.injEq, ReadOutcome.bytes.injEq] at h
        obtain ⟨rfl, rfl⟩ := h
        have := Reader.length_unread_read hr
        simp only [left]
        omega
      · rename_i outcome reader hne hr
        simp only [Prod.mk.injEq] at h
        exact (hne bs h.1).elim

/-- Bytes until there are no more, asked for as there is room. -/
def drain (room : Room) (s : StreamSource) : Except TransportError Bytes × StreamSource :=
  match _h : s.read room.asked with
  | (.interrupted, s') => drain room s'
  | (.failed e, s') => (.error e, s')
  | (.bytes bs, s') =>
    if _hb : bs = [] then (.ok [], s')
    else
      let (more, s'') := drain (room.add bs.length) s'
      (more.map (bs ++ ·), s'')
termination_by (s.left, s.reader.interruptsLeft)
decreasing_by
  · obtain ⟨hl, hi⟩ := left_read_interrupted _h
    rw [hl]
    exact Prod.Lex.right _ hi
  · have hl := left_read _h
    have : 0 < bs.length := List.length_pos_iff.mpr _hb
    exact Prod.Lex.left _ _ (by omega)

/-- **Everything that is left.**  What was read before a failure is lost, but counts as consumed. -/
def rest (s : StreamSource) : Except TransportError Bytes × StreamSource :=
  s.drain {}

end StreamSource

end Envelope

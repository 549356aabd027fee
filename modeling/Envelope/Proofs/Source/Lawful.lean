/-
# What both kinds of source keep to

Memory and stream keep different books, and a reader may follow any rule: it may end before its
bytes do, or break at a byte of its choosing.  So a stream source in an arbitrary state need not
agree with any memory.  A few laws hold of both all the same, in every state, and they are what the
choice between the two header layouts rests on:

* a field that is served is the front of what is to come, and has the length that was asked for;
* one that is not served was missing or the reader broke, and nothing else;
* a mark changes nothing that a field can notice;
* a marker's width of bytes can be looked at and put back: reading them again gives the same bytes
  *and the same source*, books included.

The last law is the one with arithmetic in it.  A stream takes back no more than it remembers, and
what it remembers is bounded by the width of the marker; it holds because the width of the field is
that bound, not one byte more.
-/
import Envelope.Proofs.Source.Rewind

namespace Envelope

/-- A source that did not deliver: it was too short, or it broke. -/
inductive Failure.Undelivered : Failure → Prop where
  | short (wanted : Nat) : Undelivered (.truncated wanted)
  | broken (e : TransportError) : Undelivered (.transport e)

/-! ## 1. The laws -/

/-- **A source that keeps to its word**, in every state. -/
class LawfulSource (σ : Type) [Source σ] where
  /-- The bytes that are still to come. -/
  unread : σ → Bytes
  /-- The source without its books about the mark. -/
  unmarked : σ → σ
  unread_unmarked : ∀ s : σ, unread (unmarked s) = unread s
  /-- A field has the length that was asked for, and is taken off the front. -/
  front : ∀ {n : Nat} {s s' : σ} {field : Bytes}, Source.take n s = .ok field s' →
    field.length = n ∧ unread s = field ++ unread s'
  /-- A field that is not served was not delivered. -/
  undelivered : ∀ n : Nat, Fails Failure.Undelivered (Source.take n : EStateM Failure σ Bytes)
  /-- A field does not see the books about the mark. -/
  sees : ∀ n : Nat, Sees unmarked (Source.take n : EStateM Failure σ Bytes)
  /-- A mark changes nothing else. -/
  unmarked_mark : ∀ s : σ, unmarked (Source.mark s) = unmarked s
  /-- A marker that is looked at and put back is read again as if for the first time. -/
  look : ∀ {s s' : σ} {field : Bytes}, Source.take markerWidth (Source.mark s) = .ok field s' →
    ∃ s'', Source.rewind s' = .ok () s'' ∧ Source.take markerWidth s'' = .ok field s'

/-- A mark moves no byte that is still to come. -/
@[simp] theorem LawfulSource.unread_mark {σ : Type} [Source σ] [LawfulSource σ] (s : σ) :
    unread (Source.mark s) = unread s := by
  rw [← unread_unmarked, unmarked_mark, unread_unmarked]

/-! ## 2. Memory -/

namespace MemorySource

/-- The source without its mark. -/
def unmarked (m : MemorySource) : MemorySource := { m with marked := 0 }

/-- A field does not see the mark. -/
theorem take_unmarked (n : Nat) (m : MemorySource) :
    within unmarked (take n m) = within unmarked (take n m.unmarked) := by
  have hunread : m.unmarked.unread = m.unread := rfl
  unfold take
  rw [hunread]
  simp only
  split <;> rfl

end MemorySource

instance : LawfulSource MemorySource where
  unread := MemorySource.unread
  unmarked := MemorySource.unmarked
  unread_unmarked _ := rfl
  front h := by
    obtain ⟨hl, hu, -⟩ := MemorySource.take_eq_ok.mp h
    exact ⟨hl, hu⟩
  undelivered n := by
    intro s s' e h
    rcases Nat.lt_or_ge s.unread.length n with hlt | hle
    · simp only [Source.take, MemorySource.take_of_lt hlt] at h
      obtain ⟨rfl, -⟩ := EStateM.Result.error.inj h
      exact .short _
    · simp only [Source.take, MemorySource.take_of_le hle] at h
      simp at h
  sees n := by
    intro s t hst
    show within MemorySource.unmarked (MemorySource.take n s) = _
    rw [MemorySource.take_unmarked, hst, ← MemorySource.take_unmarked]
    rfl
  unmarked_mark _ := rfl
  look {s s' field} h := by
    obtain ⟨-, -, rfl⟩ := MemorySource.take_eq_ok.mp h
    exact ⟨Source.mark s, rfl, h⟩

/-! ## 3. Streams -/

namespace Reader

/-- A call hands out no more than it was asked for. -/
theorem length_read_le {asked : Nat} {r r' : Reader} {bs : Bytes}
    (h : r.read asked = (.bytes bs, r')) : bs.length ≤ asked := by
  unfold read at h
  split at h
  · simp at h
  · split at h
    · simp at h
    · simp only [Prod.mk.injEq, ReadOutcome.bytes.injEq] at h
      obtain ⟨rfl, -⟩ := h
      rw [List.length_take]
      omega

/-- **Filling gets no more than was wanted**, and as much if it says so. -/
theorem length_fill_le (wanted : Nat) (r : Reader) :
    (r.fill wanted).1.length ≤ wanted ∧
      ((r.fill wanted).2.1 = .full → (r.fill wanted).1.length = wanted) := by
  fun_induction fill wanted r with
  | case1 r => exact ⟨Nat.le_refl _, fun _ => rfl⟩
  | case2 wanted r _ r' h ih => exact ih
  | case3 wanted r _ e r' h => exact ⟨Nat.zero_le _, fun hfull => by cases hfull⟩
  | case4 wanted r _ r' h => exact ⟨Nat.zero_le _, fun hfull => by cases hfull⟩
  | case5 wanted r _ bs r' h _ more stop r'' hfill ih =>
    have hle := length_read_le h
    rw [hfill] at ih
    obtain ⟨hmore, hfull⟩ := ih
    simp only [List.length_append] at hmore ⊢
    refine ⟨by omega, fun hstop => ?_⟩
    have hexact := hfull hstop
    simp only at hexact
    omega

end Reader

namespace StreamSource

/-- **Fetching gets no more than was wanted**, and as much if it says so. -/
theorem length_fetch_le (n : Nat) (s : StreamSource) :
    (s.fetch n).1.length ≤ n ∧ ((s.fetch n).2.1 = .full → (s.fetch n).1.length = n) := by
  obtain ⟨hle, hfull⟩ := s.reader.length_fill_le (n - (s.replay.take n).length)
  have hqueue : (s.replay.take n).length ≤ n := by
    rw [List.length_take]
    omega
  simp only [fetch, List.length_append]
  refine ⟨by omega, fun hstop => ?_⟩
  rw [hfull hstop]
  omega

/-- **What asking for a field can come to**, in any state and whatever the reader's rule. -/
theorem take_outcome (n : Nat) (s : StreamSource) :
    (∃ field replay reader, field.length = n ∧ s.unread = field ++ (replay ++ reader.unread) ∧
        take n s = .ok field (({ s with replay, reader } : StreamSource).serve field)) ∨
      ∃ e s', take n s = .error e s' ∧ e.Undelivered := by
  obtain ⟨field, stop, replay, reader, hf, hu⟩ := s.fetch_cases n
  have hlength := (s.length_fetch_le n).2
  rw [hf] at hlength
  unfold take
  rw [hf]
  cases stop with
  | full => exact Or.inl ⟨field, replay, reader, hlength rfl, hu, rfl⟩
  | ended => exact Or.inr ⟨_, _, rfl, .short _⟩
  | failed e => exact Or.inr ⟨_, _, rfl, .broken e⟩

/-- A field that is served is taken out of the queue as far as it reaches, and counted. -/
theorem take_counts {n : Nat} {s s' : StreamSource} {field : Bytes}
    (h : take n s = .ok field s') :
    s'.replay = s.replay.drop n ∧ s'.consumed = s.consumed + field.length := by
  have hqueue : (s.fetch n).2.2.replay = s.replay.drop n := rfl
  have hcount : (s.fetch n).2.2.consumed = s.consumed := rfl
  unfold take at h
  split at h
  · rename_i hf
    obtain ⟨rfl, rfl⟩ := EStateM.Result.ok.inj h
    rw [hf] at hqueue hcount
    rw [← hqueue, ← hcount]
    unfold serve
    split <;> exact ⟨rfl, rfl⟩
  · simp at h
  · simp at h

/-- The source without its books about the mark. -/
def unmarked (s : StreamSource) : StreamSource :=
  { s with lookback := [], marked := false, sinceMark := 0 }

@[simp] theorem unmarked_serve (field : Bytes) (s : StreamSource) :
    (s.serve field).unmarked = s.unmarked.serve field := by
  unfold serve unmarked
  split <;> rfl

/-- A field does not see the books about the mark. -/
theorem take_unmarked (n : Nat) (s : StreamSource) :
    within unmarked (take n s) = within unmarked (take n s.unmarked) := by
  have hfetch : s.unmarked.fetch n =
      ((s.fetch n).1, (s.fetch n).2.1, (s.fetch n).2.2.unmarked) := rfl
  unfold take
  rw [hfetch]
  obtain ⟨field, stop, s'⟩ := s.fetch n
  cases stop with
  | full =>
    simp only [within, unmarked_serve]
    rfl
  | ended => rfl
  | failed e => rfl

/-- A field that waits in the queue is served from there, and the reader is not asked. -/
theorem take_of_queued {s : StreamSource} (field behind : Bytes) (h : s.replay = field ++ behind) :
    take field.length s = .ok field (({ s with replay := behind } : StreamSource).serve field) := by
  have hqueue : s.replay.take field.length = field := by rw [h, List.take_left]
  have hbehind : s.replay.drop field.length = behind := by rw [h, List.drop_left]
  have hidle : s.reader.fill 0 = ([], .full, s.reader) := by rw [Reader.fill, dif_pos rfl]
  have hfetch : s.fetch field.length = (field, .full, { s with replay := behind }) := by
    simp only [fetch, hqueue, hbehind, Nat.sub_self, hidle, List.append_nil]
  unfold take
  rw [hfetch]

/-- **A marker that was looked at and put back is read again**, and the source is then what it was
after the first time. -/
theorem look_again {s s' : StreamSource} {field : Bytes}
    (h : take markerWidth s.mark = .ok field s') :
    ∃ s'', rewind s' = .ok () s'' ∧ take markerWidth s'' = .ok field s' := by
  rcases s.mark.take_outcome markerWidth with
    ⟨field', replay, reader, hlength, -, htake⟩ | ⟨e, s', htake, -⟩
  · rw [h] at htake
    obtain ⟨rfl, rfl⟩ := EStateM.Result.ok.inj htake
    -- all of the field is remembered, as there is just room for it
    have hserved : ∀ m : StreamSource, m.marked = true → m.lookback = [] → m.sinceMark = 0 →
        m.serve field = { m with
          lookback := field, sinceMark := field.length
          consumed := m.consumed + field.length } := by
      intro m hmarked hlookback hsince
      have hroom : m.lookback.length + field.length ≤ markerWidth := by
        rw [hlookback, hlength]
        exact Nat.le_of_eq (Nat.zero_add _)
      rw [serve_of_marked hmarked, if_pos hroom, hlookback, hsince, List.nil_append, Nat.zero_add]
    rw [hserved _ rfl rfl rfl]
    refine ⟨_, rewind_of_near rfl (Nat.le_of_eq hlength), ?_⟩
    rw [← hlength, take_of_queued field replay rfl, hserved _ rfl rfl rfl]
    simp only [backed, Nat.add_sub_cancel]
  · rw [h] at htake
    simp at htake

end StreamSource

instance : LawfulSource StreamSource where
  unread := StreamSource.unread
  unmarked := StreamSource.unmarked
  unread_unmarked _ := rfl
  front {n s s' field} h := by
    rcases s.take_outcome n with ⟨field', replay, reader, hl, hu, htake⟩ | ⟨e, s'', htake, -⟩
    · rw [show Source.take n s = _ from htake] at h
      obtain ⟨rfl, rfl⟩ := EStateM.Result.ok.inj h
      exact ⟨hl, by simpa [StreamSource.unread] using hu⟩
    · rw [show Source.take n s = _ from htake] at h
      simp at h
  undelivered n := by
    intro s s' e h
    rcases s.take_outcome n with ⟨field', replay, reader, hl, hu, htake⟩ | ⟨e', s'', htake, he⟩
    · rw [show Source.take n s = _ from htake] at h
      simp at h
    · rw [show Source.take n s = _ from htake] at h
      obtain ⟨rfl, -⟩ := EStateM.Result.error.inj h
      exact he
  sees n s t hst := by
    show within StreamSource.unmarked (StreamSource.take n s) = _
    rw [StreamSource.take_unmarked, hst, ← StreamSource.take_unmarked]
    rfl
  unmarked_mark _ := rfl
  look := StreamSource.look_again

end Envelope

/-
# A stream in place of memory

Headers are read from memory and from a stream by the same readings, so the stream has to answer as
memory would: the same fields, the same count, and the same bytes still to come, request by request,
whatever the pieces are in which its reader delivers.  This module says so for any requests, made
one after the other (`stream_refines_memory`).

* The answers are the same as long as no request goes back further than a stream remembers
  (`AllNear`), up to the first field that is cut short.  That field fails alike on both, and is not
  counted on either; what was there of it is left to the memory alone, so nothing is compared behind
  it.
* A request that goes back too far is honoured by memory and refused by a stream.  The refusal is an
  answer like any other: what follows it is what follows without it.  This is said by comparing the
  stream with memory that goes back no further than a stream does (`seenNear`).

The second part is about streams alone, and about every use of them, incomplete fields and pieces
included: how far the place is from the mark can be told from the calls (`distance`), a stream
refuses to go back if that is too far, and what it takes off its count when it does go back is never
more than is on it.  Both parts rest on what a source knows of its mark (`Window`).
-/
import Envelope.Proofs.Source.Lawful

namespace Envelope

namespace Source

/-! ## 1. Requests and what is seen of them -/

/-- The fields that a source can be asked for. -/
inductive Field where
  | byte
  | nat32
  | int32
  | bytes (n : Nat)
  deriving DecidableEq, Repr

/-- What a source can be asked for. -/
inductive Request where
  | field (f : Field)
  | mark
  | rewind
  deriving DecidableEq, Repr

/-- What a request is answered with. -/
inductive Answer where
  | number (n : Int)
  | bytes (bs : Bytes)
  /-- The place was marked, or the source went back to it. -/
  | done
  deriving DecidableEq, Repr

section

variable {σ : Type} [Source σ]

namespace Field

/-- The number of bytes a field takes. -/
def width : Field → Nat
  | byte => 1
  | nat32 => 4
  | int32 => 4
  | bytes n => n

/-- What a field says, by its bytes. -/
def answer (w : Bytes) : Field → Answer
  | byte => .number (w.headD 0).toNat
  | nat32 => .number (Bytes.toNatBE w)
  | int32 => .number (Bytes.toInt32 w)
  | bytes _ => .bytes w

/-- Asks a source for a field. -/
def read : Field → EStateM Failure σ Answer
  | byte => do return .number (← Source.byte).toNat
  | nat32 => do return .number (← Source.nat32)
  | int32 => do return .number (← Source.int32)
  | bytes n => do return .bytes (← take n)

/-- **A field is its bytes**, read in its own way. -/
theorem read_eq (f : Field) :
    (f.read : EStateM Failure σ Answer) = do return f.answer (← take f.width) := by
  cases f with
  | byte => simp only [read, Source.byte, bind_assoc, pure_bind, answer, width]
  | nat32 => simp only [read, Source.nat32, bind_assoc, pure_bind, answer, width]
  | int32 => simp only [read, Source.int32, bind_assoc, pure_bind, answer, width]
  | bytes n => rfl

theorem read_of_ok {f : Field} {s s' : σ} {w : Bytes} (h : take f.width s = .ok w s') :
    f.read s = .ok (f.answer w) s' := by
  rw [read_eq, bind_of_ok h]
  rfl

theorem read_of_error {f : Field} {s s' : σ} {e : Failure} (h : take f.width s = .error e s') :
    f.read s = .error e s' := by
  rw [read_eq, bind_of_error h]

end Field

end

/-- **What is seen of a request from outside.** -/
inductive Seen where
  /-- It was answered, with what is consumed and what is still to come then. -/
  | served (answer : Answer) (consumed : Nat) (unread : Bytes)
  /-- It was refused, and the source goes on from here. -/
  | refused (e : Failure) (consumed : Nat) (unread : Bytes)
  /-- It was a field that failed. -/
  | cut (e : Failure) (consumed : Nat)
  deriving DecidableEq, Repr

/-- The number of bytes that are consumed behind a request. -/
def Seen.consumed : Seen → Nat
  | served _ consumed _ => consumed
  | refused _ consumed _ => consumed
  | cut _ consumed => consumed

section

variable {σ : Type} [Source σ] [LawfulSource σ]

/-- A source behind a request that was answered. -/
def shown (answer : Answer) (s : σ) : Seen :=
  .served answer (consumed s) (LawfulSource.unread s)

theorem shown_ne_cut {answer : Answer} {s : σ} (e : Failure) (n : Nat) :
    shown answer s ≠ .cut e n := Seen.noConfusion

/-- **What is seen of requests, one after the other**, up to the first field that fails. -/
def seen : List Request → σ → List Seen
  | [], _ => []
  | .field f :: requests, s =>
    match f.read s with
    | .ok answer s' => shown answer s' :: seen requests s'
    | .error e s' => [.cut e (consumed s')]
  | .mark :: requests, s => shown .done (mark s) :: seen requests (mark s)
  | .rewind :: requests, s =>
    match rewind s with
    | .ok () s' => shown .done s' :: seen requests s'
    | .error e s' => .refused e (consumed s') (LawfulSource.unread s') :: seen requests s'

end

/-! ## 2. Going back no further than a stream does -/

/-- The way back is near: there is a mark, and no more than the marker's width was read since. -/
def Near (since : Option Nat) : Prop := ∃ n, since = some n ∧ n ≤ markerWidth

instance (since : Option Nat) : Decidable (Near since) :=
  match since with
  | none => .isFalse fun ⟨_, h, _⟩ => nomatch h
  | some n => decidable_of_iff (n ≤ markerWidth)
      ⟨fun h => ⟨n, rfl, h⟩, fun ⟨_, h, hn⟩ => Option.some.inj h ▸ hn⟩

/-- The refusal to go back too far, which says how far it would have been. -/
def tooFar (since : Option Nat) : Failure :=
  .encoding (.rewindUnsupported (since.getD 0) markerWidth)

/-- **No request goes back too far**, up to the first field that is cut short.  The first argument
is how many bytes were read since the mark, if there is one; whoever is back at it starts anew. -/
def AllNear : Option Nat → List Request → MemorySource → Prop
  | _, [], _ => True
  | since, .field f :: requests, m =>
    match f.read m with
    | .ok _ m' => AllNear (since.map (· + f.width)) requests m'
    | .error _ _ => True
  | _, .mark :: requests, m => AllNear (some 0) requests (mark m)
  | since, .rewind :: requests, m =>
    Near since ∧ AllNear (some 0) requests { m with position := m.marked }

/-- **What is seen of memory that goes back no further than a stream does.**  A request that goes
back too far is refused, and changes nothing. -/
def seenNear : Option Nat → List Request → MemorySource → List Seen
  | _, [], _ => []
  | since, .field f :: requests, m =>
    match f.read m with
    | .ok answer m' => shown answer m' :: seenNear (since.map (· + f.width)) requests m'
    | .error e m' => [.cut e m'.position]
  | _, .mark :: requests, m => shown .done (mark m) :: seenNear (some 0) requests (mark m)
  | since, .rewind :: requests, m =>
    if Near since then
      shown .done { m with position := m.marked } ::
        seenNear (some 0) requests { m with position := m.marked }
    else
      .refused (tooFar since) m.position m.unread :: seenNear since requests m

/-- Where no request goes back too far, that is what is seen of any memory. -/
theorem seenNear_of_allNear {requests : List Request} {since : Option Nat} {m : MemorySource}
    (h : AllNear since requests m) : seenNear since requests m = seen requests m := by
  induction requests generalizing since m with
  | nil => rfl
  | cons request requests ih =>
    cases request with
    | field f =>
      simp only [AllNear] at h
      simp only [seenNear, seen]
      cases hread : f.read m with
      | ok answer m' =>
        rw [hread] at h
        exact congrArg _ (ih h)
      | error e m' => rfl
    | mark => exact congrArg _ (ih h)
    | rewind =>
      obtain ⟨hnear, hrest⟩ := h
      rw [seenNear, if_pos hnear, ih hrest]
      rfl

/-- **A field of memory is read, or is cut short** and leaves memory as it was. -/
theorem Field.read_cases (f : Field) (m : MemorySource) :
    (∃ answer m', f.read m = .ok answer m') ∨
      ∃ wanted, 0 < wanted ∧ f.read m = .error (.truncated wanted) m := by
  rcases Nat.lt_or_ge m.unread.length f.width with hshort | hlong
  · exact Or.inr ⟨_, Nat.sub_pos_of_lt hshort, read_of_error (MemorySource.take_of_lt hshort)⟩
  · exact Or.inl ⟨_, _, read_of_ok (MemorySource.take_of_le hlong)⟩

/-- One request: it is answered or refused and the others follow, or it is a field that is cut
short. -/
theorem seenNear_cases (since : Option Nat) (request : Request) (requests : List Request)
    (m : MemorySource) :
    (∃ x since' m', seenNear since (request :: requests) m = x :: seenNear since' requests m' ∧
        x.consumed = m'.position ∧ ∀ e n, x ≠ .cut e n) ∨
      ∃ wanted, 0 < wanted ∧
        seenNear since (request :: requests) m = [.cut (.truncated wanted) m.position] := by
  cases request with
  | field f =>
    rcases f.read_cases m with ⟨answer, m', hread⟩ | ⟨wanted, hpos, hread⟩
    · refine Or.inl ⟨shown answer m', since.map (· + f.width), m', ?_, rfl, shown_ne_cut⟩
      simp only [seenNear, hread]
    · exact Or.inr ⟨wanted, hpos, by simp only [seenNear, hread]⟩
  | mark => exact Or.inl ⟨shown .done (mark m), some 0, mark m, rfl, rfl, shown_ne_cut⟩
  | rewind =>
    by_cases hnear : Near since
    · obtain ⟨m', hm'⟩ : ∃ m' : MemorySource, m' = { m with position := m.marked } := ⟨_, rfl⟩
      refine Or.inl ⟨shown .done m', some 0, m', ?_, rfl, shown_ne_cut⟩
      rw [seenNear, if_pos hnear, hm']
    · refine Or.inl ⟨.refused (tooFar since) m.position m.unread, since, m, ?_, rfl, ?_⟩
      · rw [seenNear, if_neg hnear]
      · exact fun _ _ => Seen.noConfusion

/-- **A field that is cut short** misses bytes, and leaves the count where it was. -/
theorem cut_of_seenNear {requests : List Request} {since : Option Nat} {m : MemorySource}
    {before : List Seen} {e : Failure} {n : Nat}
    (h : seenNear since requests m = before ++ [.cut e n]) :
    (∃ wanted, 0 < wanted ∧ e = .truncated wanted) ∧
      n = (before.map Seen.consumed).getLastD m.position := by
  induction requests generalizing since m before with
  | nil => simp [seenNear] at h
  | cons request requests ih =>
    rcases seenNear_cases since request requests m with
      ⟨x, since', m', hx, hcount, hserved⟩ | ⟨wanted, hpos, hcut⟩
    · rw [hx] at h
      cases before with
      | nil => exact absurd (List.cons.inj h).1 (hserved e n)
      | cons y before =>
        obtain ⟨rfl, hrest⟩ := List.cons.inj h
        rw [List.map_cons, List.getLastD_cons, hcount]
        exact ih hrest
    · rw [hcut] at h
      cases before with
      | nil =>
        obtain ⟨he, hn⟩ := Seen.cut.inj (List.cons.inj h).1
        exact ⟨⟨wanted, hpos, he.symm⟩, hn.symm⟩
      | cons y before => simp at h

end Source

/-! ## 3. How far a stream is from its mark -/

namespace StreamSource

open Source (Near tooFar)

variable {since : Option Nat} {s s' : StreamSource}

/-- How many bytes were served in fields between the mark and the place behind a call, if there is a
mark.  Incomplete fields and pieces do not count, and whoever is back at the mark starts anew. -/
def Call.distance (since : Option Nat) (s : StreamSource) : Call → Option Nat
  | .field n =>
    match take n s with
    | .ok _ _ => since.map (· + n)
    | .error _ _ => since
  | .read _ => since
  | .mark => some 0
  | .rewind => if Near since then some 0 else since

/-- How far a source is from its mark behind a sequence of calls. -/
def distance : List Call → Option Nat → StreamSource → Option Nat
  | [], since, _ => since
  | c :: calls, since, s => distance calls (c.distance since s) (c.after s)

/-- **What a source knows of its mark**: how far away it is, and that this is no more than was
counted. -/
structure Window (since : Option Nat) (s : StreamSource) : Prop where
  marked : s.marked = since.isSome
  sinceMark : s.sinceMark = since.getD 0
  counted : s.sinceMark ≤ s.consumed

@[simp] theorem sinceMark_serve (field : Bytes) (s : StreamSource) :
    (s.serve field).sinceMark = if s.marked then s.sinceMark + field.length else s.sinceMark := by
  unfold serve
  split <;> rfl

@[simp] theorem consumed_serve (field : Bytes) (s : StreamSource) :
    (s.serve field).consumed = s.consumed + field.length := by
  unfold serve
  split <;> rfl

namespace Window

/-- At the beginning nothing is marked. -/
theorem ofReader (r : Reader) : Window none (ofReader r) := ⟨rfl, rfl, Nat.le_refl 0⟩

/-- A field moves the place away from the mark, if there is one. -/
theorem serve (h : Window since s) (field replay : Bytes) (reader : Reader) :
    Window (since.map (· + field.length))
      (({ s with replay, reader } : StreamSource).serve field) where
  marked := by simp [h.marked]
  sinceMark := by cases since <;> simp [h.marked, h.sinceMark]
  counted := by
    have hcounted := h.counted
    simp only [sinceMark_serve, consumed_serve]
    split <;> omega

/-- **The way back is near when the source does not refuse it.** -/
theorem near_iff (h : Window since s) :
    Near since ↔ s.marked = true ∧ s.sinceMark ≤ markerWidth := by
  rw [h.marked, h.sinceMark]
  constructor
  · rintro ⟨n, rfl, hn⟩
    exact ⟨rfl, hn⟩
  · rintro ⟨hsome, hn⟩
    obtain ⟨n, rfl⟩ := Option.isSome_iff_exists.mp hsome
    exact ⟨n, rfl, hn⟩

/-- Going back is done, if it is not too far. -/
theorem backs (h : Window since s) (hnear : Near since) : rewind s = .ok () s.backed := by
  obtain ⟨hmarked, hn⟩ := h.near_iff.mp hnear
  exact rewind_of_near hmarked hn

/-- Going back too far is refused, and changes nothing. -/
theorem refuses (h : Window since s) (hfar : ¬Near since) : rewind s = .error (tooFar since) s := by
  have hrefused : s.RefusesRewind := by
    rw [h.near_iff] at hfar
    cases hmarked : s.marked with
    | false => exact refusesRewind_of_unmarked hmarked
    | true => exact refusesRewind_of_far (Nat.lt_of_not_le fun hn => hfar ⟨hmarked, hn⟩)
  rw [tooFar, ← h.sinceMark]
  exact hrefused

/-- **What every call keeps.** -/
theorem call (h : Window since s) (c : Call) : Window (c.distance since s) (c.after s) := by
  cases c with
  | field n =>
    obtain ⟨field, replay, reader, -, ⟨htake, -⟩ | ⟨⟨e, htake⟩, -⟩⟩ := s.take_cases n
    · obtain ⟨hlength, -⟩ := LawfulSource.front (σ := StreamSource) htake
      simp only [Call.distance, Call.after, htake, leftBy]
      rw [← hlength]
      exact h.serve field replay reader
    · simp only [Call.distance, Call.after, htake, leftBy]
      exact ⟨h.marked, h.sinceMark, h.counted⟩
  | read asked =>
    obtain ⟨outcome, replay, reader, hread, -⟩ := s.read_cases asked
    rw [Call.after, hread]
    exact ⟨h.marked, h.sinceMark, Nat.le_add_right_of_le h.counted⟩
  | mark => exact ⟨rfl, rfl, Nat.zero_le _⟩
  | rewind =>
    by_cases hnear : Near since
    · rw [Call.distance, if_pos hnear, Call.after, h.backs hnear]
      exact ⟨(h.near_iff.mp hnear).1, rfl, Nat.zero_le _⟩
    · rw [Call.distance, if_neg hnear, Call.after, h.refuses hnear]
      exact h

/-- **What every sequence of calls keeps.** -/
theorem calls (h : Window since s) (calls : List Call) :
    Window (distance calls since s) (s.after calls) := by
  induction calls generalizing since s with
  | nil => exact h
  | cons c calls ih => exact ih (h.call c)

end Window

end StreamSource

/-! ## 4. Side by side -/

namespace Source

/-- **A stream source that stands where a memory source stands**, and as far from its mark. -/
structure Beside (since : Option Nat) (m : MemorySource) (s : StreamSource) : Prop where
  follows : Follows none m s
  window : s.Window since

namespace Beside

variable {since : Option Nat} {m : MemorySource} {s : StreamSource}

/-- At the beginning, where nothing is marked. -/
theorem ofReader {r : Reader} {d : Bytes} (h : r.Delivers d none) :
    Beside none (.ofBytes d) (.ofReader r) := ⟨Follows.ofReader h, .ofReader r⟩

/-- Where the two stand, as much is consumed. -/
theorem consumed_eq (h : Beside since m s) : consumed s = m.position := h.follows.consumed

/-- Where the two stand, the same is to come. -/
theorem unread_eq (h : Beside since m s) : LawfulSource.unread s = m.unread :=
  (h.follows.delivers.prefix_unread.2 rfl).symm

theorem shown_eq (h : Beside since m s) (answer : Answer) : shown answer s = shown answer m := by
  rw [shown, h.consumed_eq, h.unread_eq]
  rfl

/-- **A field is the same on both**, or is cut short alike. -/
theorem read (h : Beside since m s) (f : Field) :
    Alike (fun a b m' s' => b = a ∧ Beside (since.map (· + f.width)) m' s')
      (fun e e' m' s' => e' = e ∧ s'.consumed = m'.position) (f.read m) (f.read s) := by
  have hcall := h.window.call (.field f.width)
  rcases (h.follows.take f.width).outcome with
    ⟨w, _, m', s', hm, hs, rfl, hfollows, -⟩ | ⟨e, e', m', s', hm, hs, he, hcount⟩
  · simp only [StreamSource.Call.distance, StreamSource.Call.after, hs, leftBy] at hcall
    rw [Field.read_of_ok hm, Field.read_of_ok hs]
    exact ⟨rfl, hfollows, hcall⟩
  · rw [Field.read_of_error hm, Field.read_of_error hs]
    exact ⟨he.trans (Failure.atEnd_none e), hcount⟩

/-- Both are marked. -/
theorem mark (h : Beside since m s) : Beside (some 0) (Source.mark m) (Source.mark s) :=
  ⟨h.follows.mark, h.window.call .mark⟩

/-- Both go back, if it is not too far. -/
theorem rewind (h : Beside since m s) (hnear : Near since) :
    ∃ s', Source.rewind s = .ok () s' ∧ Beside (some 0) { m with position := m.marked } s' := by
  have hcall := h.window.call .rewind
  have hback := h.window.backs hnear
  rw [StreamSource.Call.distance, if_pos hnear, StreamSource.Call.after, hback] at hcall
  obtain ⟨hmarked, hn⟩ := h.window.near_iff.mp hnear
  obtain ⟨s', hs', hfollows, -⟩ := h.follows.rewind hmarked hn
  rw [hback] at hs'
  obtain ⟨-, rfl⟩ := EStateM.Result.ok.inj hs'
  exact ⟨s.backed, hback, hfollows, hcall⟩

/-- **All that is seen of the stream** is seen of memory that goes back no further. -/
theorem seen_eq (h : Beside since m s) (requests : List Request) :
    seen requests s = seenNear since requests m := by
  induction requests generalizing since m s with
  | nil => rfl
  | cons request requests ih =>
    cases request with
    | field f =>
      rcases (h.read f).outcome with
        ⟨a, _, m', s', hm, hs, rfl, hnext⟩ | ⟨e, _, m', s', hm, hs, rfl, hcount⟩
      · simp only [seen, seenNear, hm, hs, hnext.shown_eq, ih hnext]
      · -- the two part here, and nothing more is seen of either
        simp only [seen, seenNear, hm, hs]
        exact congrArg (fun n => [Seen.cut _ n]) hcount
    | mark => rw [seen, seenNear, h.mark.shown_eq, ih h.mark]
    | rewind =>
      by_cases hnear : Near since
      · obtain ⟨s', hs', hnext⟩ := h.rewind hnear
        simp only [seen, seenNear, hs', if_pos hnear, hnext.shown_eq, ih hnext]
      · -- neither side has moved, so the next request finds them as this one did
        have hrefused : Source.rewind s = .error (tooFar since) s := h.window.refuses hnear
        simp only [seen, seenNear, hrefused, if_neg hnear, h.consumed_eq, h.unread_eq, ih h]

end Beside

/-! ## 5. In place of memory -/

/-- **What is seen of a stream**, beside memory that holds the bytes `d`. -/
structure AsMemory (d : Bytes) (s : StreamSource) (requests : List Request) : Prop where
  /-- Where no request goes back too far, everything is as in memory: the answers, the counts and
  the bytes to come, up to a field that is cut short, and how that one fails. -/
  same : AllNear none requests (.ofBytes d) →
    seen requests s = seen requests (MemorySource.ofBytes d)
  /-- A request that goes back too far is refused, and the others are answered as if it had not been
  made. -/
  refused : seen requests s = seenNear none requests (.ofBytes d)
  /-- A field that is cut short misses bytes, and leaves the count where it was. -/
  cut : ∀ before e n, seen requests s = before ++ [.cut e n] →
    (∃ wanted, 0 < wanted ∧ e = .truncated wanted) ∧ n = (before.map Seen.consumed).getLastD 0

end Source

/-- **A stream answers as memory does**, whatever the pieces are in which its reader delivers, and
however often it is interrupted.

Whatever the reader does, and after any calls: no more lies between the mark and the place than is
counted, so that going back can take it off the count; and going back too far, or without a mark, is
refused and changes nothing. -/
theorem stream_refines_memory (r : Reader) :
    (∀ d, r.Delivers d none → ∀ requests, Source.AsMemory d (.ofReader r) requests) ∧
      ∀ calls : List StreamSource.Call,
        ((StreamSource.ofReader r).after calls).sinceMark ≤
            ((StreamSource.ofReader r).after calls).consumed ∧
          (¬Source.Near (StreamSource.distance calls none (.ofReader r)) →
            StreamSource.rewind ((StreamSource.ofReader r).after calls) =
              .error (Source.tooFar (StreamSource.distance calls none (.ofReader r)))
                ((StreamSource.ofReader r).after calls)) := by
  constructor
  · intro d hd requests
    have hall := (Source.Beside.ofReader hd).seen_eq requests
    refine ⟨fun hnear => ?_, hall, fun before e n hcut => ?_⟩
    · rw [hall, Source.seenNear_of_allNear hnear]
    · rw [hall] at hcut
      exact Source.cut_of_seenNear hcut
  · intro calls
    have hwindow := (StreamSource.Window.ofReader r).calls calls
    exact ⟨hwindow.counted, hwindow.refuses⟩

open Source in
/-- A reader that hands out three bytes and one in turn, and is interrupted once.  A marker is put
back and read again in fields that do not end where it ended, from a second mark within it, and the
last field misses a byte.  Then the same bytes with two attempts to go back too far. -/
theorem stream_refines_memory_nine_bytes :
    seen [.mark, .field .int32, .rewind, .field .byte, .mark, .field (.bytes 4), .rewind,
        .field .nat32, .field (.bytes 0), .field (.bytes 5)]
      (StreamSource.ofReader
        (.paced [255, 255, 255, 254, 42, 0, 0, 1, 0] { sizes := [3, 1] } [1])) =
        [.served .done 0 [255, 255, 255, 254, 42, 0, 0, 1, 0],
          .served (.number (-2)) 4 [42, 0, 0, 1, 0],
          .served .done 0 [255, 255, 255, 254, 42, 0, 0, 1, 0],
          .served (.number 255) 1 [255, 255, 254, 42, 0, 0, 1, 0],
          .served .done 1 [255, 255, 254, 42, 0, 0, 1, 0],
          .served (.bytes [255, 255, 254, 42]) 5 [0, 0, 1, 0],
          .served .done 1 [255, 255, 254, 42, 0, 0, 1, 0],
          .served (.number 0xFFFFFE2A) 5 [0, 0, 1, 0],
          .served (.bytes []) 5 [0, 0, 1, 0],
          .cut (.truncated 1) 5] ∧
    seen [.rewind, .mark, .field (.bytes 5), .rewind, .field .nat32]
      (StreamSource.ofReader
        (.paced [255, 255, 255, 254, 42, 0, 0, 1, 0] { sizes := [3, 1] } [1])) =
        [.refused (.encoding (.rewindUnsupported 0 4)) 0 [255, 255, 255, 254, 42, 0, 0, 1, 0],
          .served .done 0 [255, 255, 255, 254, 42, 0, 0, 1, 0],
          .served (.bytes [255, 255, 255, 254, 42]) 5 [0, 0, 1, 0],
          .refused (.encoding (.rewindUnsupported 5 4)) 5 [0, 0, 1, 0],
          .served (.number 256) 9 []] := by
  have hd := Reader.delivers_paced [255, 255, 255, 254, 42, 0, 0, 1, 0] [1]
    (by decide : ∀ n ∈ [3, 1], 0 < n)
  have hmemory := (stream_refines_memory _).1 _ hd
  constructor
  · refine ((hmemory _).same ?_).trans rfl
    exact ⟨⟨4, rfl, Nat.le_refl 4⟩, ⟨4, rfl, Nat.le_refl 4⟩, trivial⟩
  · exact (hmemory _).refused.trans rfl

end Envelope

/-
# Reading fields

A reading of header fields is a chain of a few steps: so many bytes, one byte, a signed number, a
question to the resolver, a refusal.  For each step this module says two things.

*On memory*, when the step ends well: which bytes it took off the front (`Reads`).  Readings that
end well compose by concatenating what they read, so a header that was read can be written down
again field by field.

*On both kinds of source*: that the step goes the same way on either (`Parallel`).  Readings made of
such steps go the same way again, so the two layouts need one line for each field and no argument
about sources.
-/
import Envelope.Proofs.Source
import Envelope.Header.Scan

namespace Envelope

/-- A name that has an answer has a key. -/
theorem Resolver.key_of_answer {r : Resolver} {name : String} {asked : List String} {k : Key}
    (h : r.answer asked name = some k) : r.key name asked = .ok k (asked ++ [name]) := by
  unfold Resolver.key
  rw [bind_of_ok (rfl : r.ask name asked = .ok _ _), h]
  rfl

/-- A name that has no answer has no key. -/
theorem Resolver.key_of_unanswered {r : Resolver} {name : String} {asked : List String}
    (h : r.answer asked name = none) :
    r.key name asked = .error (.key (.notFound name)) (asked ++ [name]) := by
  unfold Resolver.key
  rw [bind_of_ok (rfl : r.ask name asked = .ok _ _), h]
  rfl

/-- A name that has a key has an answer. -/
theorem Resolver.answer_of_key {r : Resolver} {name : String} {asked asked' : List String} {k : Key}
    (h : r.key name asked = .ok k asked') : r.answer asked name = some k := by
  unfold Resolver.key at h
  rw [bind_of_ok (rfl : r.ask name asked = .ok _ _)] at h
  cases ha : r.answer asked name with
  | none => rw [ha] at h; simp at h
  | some k₁ =>
    rw [ha] at h
    obtain ⟨rfl, -⟩ := EStateM.Result.ok.inj h
    rfl

namespace Scan

variable {α β : Type}

/-! ## 1. What is read from memory -/

/-- **`w` is what was read between the two states**: it stood in front, and the place is behind
it. -/
def Reads (s : ScanState MemorySource) (w : Bytes) (s' : ScanState MemorySource) : Prop :=
  s.source.unread = w ++ s'.source.unread ∧ s'.source.position = s.source.position + w.length

theorem Reads.trans {s₁ s₂ s₃ : ScanState MemorySource} {w₁ w₂ : Bytes} (h₁ : Reads s₁ w₁ s₂)
    (h₂ : Reads s₂ w₂ s₃) : Reads s₁ (w₁ ++ w₂) s₃ := by
  refine ⟨?_, ?_⟩
  · rw [h₁.1, h₂.1, List.append_assoc]
  · rw [h₂.2, h₁.2, List.length_append, Nat.add_assoc]

/-- The state `n` bytes further on. -/
def advance (n : Nat) (s : ScanState MemorySource) : ScanState MemorySource :=
  { s with source := s.source.advance n }

theorem unread_advance {s : ScanState MemorySource} {w rest : Bytes} {n : Nat}
    (h : s.source.unread = w ++ rest) (hl : w.length = n) :
    (advance n s).source.unread = rest := by
  rw [advance, MemorySource.unread_advance, h, ← hl, List.drop_left]

theorem onSource_eq {σ : Type} (call : EStateM Failure σ α) (s : ScanState σ) :
    onSource call s =
      match call s.source with
      | .ok a source => .ok a { s with source }
      | .error e source => .error e { s with source } := by
  unfold onSource
  cases call s.source <;> rfl

/-- Bytes that end well are the bytes in front. -/
theorem bytes_eq_ok {n : Nat} {s s' : ScanState MemorySource} {w : Bytes}
    (h : bytes n s = .ok w s') : w.length = n ∧ Reads s w s' ∧ s'.asked = s.asked := by
  rw [bytes, onSource_eq] at h
  cases ht : MemorySource.take n s.source with
  | ok w₁ m =>
    simp only [Source.take, ht, EStateM.Result.ok.injEq] at h
    obtain ⟨rfl, rfl⟩ := h
    obtain ⟨hl, hu, hm⟩ := MemorySource.take_eq_ok.mp ht
    exact ⟨hl, ⟨hu, by rw [hm, MemorySource.advance, hl]⟩, rfl⟩
  | error e m => simp [Source.take, ht] at h

/-- Bytes that are there are read. -/
theorem bytes_append {n : Nat} {s : ScanState MemorySource} {w rest : Bytes}
    (h : s.source.unread = w ++ rest) (hl : w.length = n) : bytes n s = .ok w (advance n s) := by
  have hu : s.source.unread = w ++ (s.source.advance n).unread := by
    rw [MemorySource.unread_advance, h, ← hl, List.drop_left]
  have ht : MemorySource.take n s.source = .ok w (s.source.advance n) :=
    MemorySource.take_eq_ok.mpr ⟨hl, hu, rfl⟩
  rw [bytes, onSource_eq]
  simp only [Source.take, ht]
  rfl

theorem byte_eq_ok {s s' : ScanState MemorySource} {b : UInt8} (h : byte s = .ok b s') :
    Reads s [b] s' ∧ s'.asked = s.asked := by
  rw [byte_eq, bind_eq_ok] at h
  obtain ⟨w, s₁, hw, h⟩ := h
  obtain ⟨rfl, rfl⟩ := EStateM.Result.ok.inj h
  obtain ⟨hl, hr, ha⟩ := bytes_eq_ok hw
  obtain ⟨b, rfl⟩ := List.length_eq_one_iff.mp hl
  exact ⟨hr, ha⟩

theorem byte_append {s : ScanState MemorySource} {b : UInt8} {rest : Bytes}
    (h : s.source.unread = b :: rest) : byte s = .ok b (advance 1 s) := by
  rw [byte_eq, bind_of_ok (show bytes 1 s = .ok [b] (advance 1 s) from bytes_append h rfl)]
  rfl

theorem int32_eq_ok {s s' : ScanState MemorySource} {i : Int} (h : int32 s = .ok i s') :
    ∃ w, w.length = 4 ∧ i = Bytes.toInt32 w ∧ Reads s w s' ∧ s'.asked = s.asked := by
  rw [int32_eq, bind_eq_ok] at h
  obtain ⟨w, s₁, hw, h⟩ := h
  obtain ⟨rfl, rfl⟩ := EStateM.Result.ok.inj h
  obtain ⟨hl, hr, ha⟩ := bytes_eq_ok hw
  exact ⟨w, hl, rfl, hr, ha⟩

/-- A number is as many bytes as a marker. -/
theorem int32_of_bytes {σ : Type} [Source σ] {s s' : ScanState σ} {w : Bytes}
    (h : bytes markerWidth s = .ok w s') : int32 s = .ok (Bytes.toInt32 w) s' := by
  rw [int32_eq]
  exact bind_of_ok h

theorem int32_of_undelivered {σ : Type} [Source σ] {s s' : ScanState σ} {e : Failure}
    (h : bytes markerWidth s = .error e s') : int32 s = .error e s' := by
  rw [int32_eq]
  exact bind_of_error h

theorem int32_append {s : ScanState MemorySource} {w rest : Bytes}
    (h : s.source.unread = w ++ rest) (hl : w.length = 4) :
    int32 s = .ok (Bytes.toInt32 w) (advance 4 s) := by
  rw [int32_eq, bind_of_ok (bytes_append h hl)]
  rfl

/-- A number that ends well has taken four bytes, and nothing else has changed. -/
theorem advance_of_int32 {s s' : ScanState MemorySource} {i : Int} (h : int32 s = .ok i s') :
    s' = advance 4 s := by
  rw [int32_eq, bind_eq_ok] at h
  obtain ⟨w, s₁, hw, h⟩ := h
  obtain ⟨-, rfl⟩ := EStateM.Result.ok.inj h
  rw [bytes, onSource_eq] at hw
  cases ht : MemorySource.take 4 s.source with
  | ok w₁ m =>
    simp only [Source.take, ht, EStateM.Result.ok.injEq] at hw
    obtain ⟨-, rfl⟩ := hw
    rw [advance, (MemorySource.take_eq_ok.mp ht).2.2]
  | error e m => simp [Source.take, ht] at hw

/-- The state with its place remembered. -/
def remember (s : ScanState MemorySource) : ScanState MemorySource :=
  { s with source := { s.source with marked := s.source.position } }

theorem mark_eq (s : ScanState MemorySource) : mark s = .ok () (remember s) := rfl

/-- Going back from anywhere behind the mark. -/
theorem rewind_advance (n : Nat) (s : ScanState MemorySource) :
    rewind (advance n (remember s)) = .ok () (remember s) := rfl

/-- **What composes along chains and holds of bytes holds of the fields made from them.** -/
theorem field_induction {σ : Type} [Source σ] {P : ∀ {α : Type}, Scan σ α → Prop}
    (hbind : ∀ {α β : Type} {x : Scan σ α} {f : α → Scan σ β}, P x → (∀ a, P (f a)) → P (x >>= f))
    (hpure : ∀ {α : Type} (a : α), P (pure a : Scan σ α)) (hbytes : ∀ n, P (bytes n)) :
    P (byte : Scan σ UInt8) ∧ P (int32 : Scan σ Int) := by
  rw [byte_eq, int32_eq]
  exact ⟨hbind (hbytes 1) fun _ => hpure _, hbind (hbytes 4) fun _ => hpure _⟩

/-! ## 2. Questions and refusals -/

variable {σ : Type}

@[simp] theorem refuse_eq (e : HeaderError) (s : ScanState σ) :
    (refuse e : Scan σ α) s = .error (.encoding e) s := rfl

/-- The state after a question: the name is noted. -/
def note (name : String) (s : ScanState σ) : ScanState σ := { s with asked := s.asked ++ [name] }

/-- What becomes of a question to the resolver. -/
theorem asking_key (r : Resolver) (name : String) (s : ScanState σ) :
    asking (r.key name) s =
      match r.answer s.asked name with
      | some k => .ok k (note name s)
      | none => .error (.key (.notFound name)) (note name s) := by
  unfold asking Resolver.key
  rw [bind_of_ok (rfl : r.ask name s.asked = .ok _ _)]
  cases r.answer s.asked name <;> rfl

/-- **The question is noted, and an answer is a key.** -/
theorem asking_key_eq_ok {r : Resolver} {name : String} {s s' : ScanState σ} {k : Key}
    (h : asking (r.key name) s = .ok k s') :
    r.answer s.asked name = some k ∧ s' = note name s := by
  rw [asking_key] at h
  cases ha : r.answer s.asked name with
  | none => simp [ha] at h
  | some k₁ =>
    simp only [ha, EStateM.Result.ok.injEq] at h
    exact ⟨by rw [h.1], h.2.symm⟩

/-! ## 3. Memory and stream side by side -/

/-- The two readings stand at the same place and have asked the same names. -/
def Follows (failure : Option TransportError) (s : ScanState MemorySource)
    (t : ScanState StreamSource) : Prop :=
  t.asked = s.asked ∧ Envelope.Follows failure s.source t.source

/-- The two readings have failed alike: the same names were asked and as much was consumed, and the
failures differ only in that the stream says how it ended. -/
def FailAlike (failure : Option TransportError) (e e' : Failure) (s : ScanState MemorySource)
    (t : ScanState StreamSource) : Prop :=
  e' = e.atEnd failure ∧ t.asked = s.asked ∧ t.source.consumed = s.source.position

/-- Bytes are the same from both, and the stream remembers how many there were. -/
theorem alike_bytes {failure : Option TransportError} (n : Nat) {s : ScanState MemorySource}
    {t : ScanState StreamSource} (h : Follows failure s t) :
    Alike
      (fun w w' s' t' =>
        w' = w ∧ Follows failure s' t' ∧ Envelope.Follows.Served n t.source t'.source)
      (FailAlike failure) (bytes n s) (bytes n t) := by
  obtain ⟨ha, hst⟩ := h
  simp only [bytes, onSource_eq, Source.take]
  rcases (hst.take n).outcome with ⟨w, w', m, t', hm, ht, hw, hfollows, hserved⟩ |
    ⟨e, e', m, t', hm, ht, he, hused⟩
  · rw [hm, ht]
    exact ⟨hw, ⟨ha, hfollows⟩, hserved⟩
  · rw [hm, ht]
    exact ⟨he, ha, hused⟩

/-- **A reading that goes the same way from memory and from a stream.** -/
def Parallel (failure : Option TransportError) (x : Scan MemorySource α) (y : Scan StreamSource α) :
    Prop :=
  ∀ s t, Follows failure s t →
    Alike (fun a b s t => b = a ∧ Follows failure s t) (FailAlike failure) (x s) (y t)

namespace Parallel

variable {failure : Option TransportError}

theorem bind {x : Scan MemorySource α} {y : Scan StreamSource α} {f : α → Scan MemorySource β}
    {g : α → Scan StreamSource β} (h : Parallel failure x y)
    (hf : ∀ a, Parallel failure (f a) (g a)) : Parallel failure (x >>= f) (y >>= g) := by
  intro s t hst
  refine (h s t hst).bind ?_
  rintro a _ s t ⟨rfl, hst⟩
  exact hf _ s t hst

theorem pure (a : α) :
    Parallel failure (Pure.pure a : Scan MemorySource α) (Pure.pure a : Scan StreamSource α) :=
  fun _ _ hst => ⟨rfl, hst⟩

/-- Failures that do not speak of missing bytes are the same on both. -/
theorem throw {e : Failure} (he : e.atEnd failure = e) :
    Parallel failure (throw e : Scan MemorySource α) (throw e : Scan StreamSource α) :=
  fun _ _ hst => ⟨he.symm, hst.1, hst.2.consumed⟩

theorem ite {c : Prop} [Decidable c] {x x' : Scan MemorySource α} {y y' : Scan StreamSource α}
    (h : Parallel failure x y) (h' : Parallel failure x' y') :
    Parallel failure (if c then x else x') (if c then y else y') := by
  split
  · exact h
  · exact h'

theorem bytes (n : Nat) :
    Parallel failure (Scan.bytes n : Scan MemorySource Bytes) (Scan.bytes n) := by
  intro s t hst
  exact (alike_bytes n hst).mono fun _ _ _ _ h => ⟨h.1, h.2.1⟩

theorem byte : Parallel failure (Scan.byte : Scan MemorySource UInt8) Scan.byte := by
  rw [byte_eq, byte_eq]
  exact (bytes 1).bind fun _ => pure _

theorem int32 : Parallel failure (Scan.int32 : Scan MemorySource Int) Scan.int32 := by
  rw [int32_eq, int32_eq]
  exact (bytes 4).bind fun _ => pure _

/-- A refusal is one, on both. -/
theorem refuse {e : HeaderError} (he : ∀ wanted, e ≠ .truncated wanted) :
    Parallel failure (Scan.refuse e : Scan MemorySource α) (Scan.refuse e) := by
  refine throw ?_
  unfold Failure.atEnd
  split
  · rename_i wanted h
    exact absurd (Failure.encoding.inj h) (he wanted)
  · rfl

/-- The resolver sees the same questions. -/
theorem asking (r : Resolver) (name : String) :
    Parallel failure (Scan.asking (r.key name) : Scan MemorySource Key)
      (Scan.asking (r.key name)) := by
  intro s t ⟨ha, hst⟩
  have hnoted : (note name t).asked = (note name s).asked := by rw [note, note, ha]
  rw [asking_key, asking_key, ha]
  cases r.answer s.asked name with
  | none => exact ⟨rfl, hnoted, hst.consumed⟩
  | some k => exact ⟨rfl, hnoted, hst⟩

end Parallel

end Scan

end Envelope

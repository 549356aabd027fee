/-
# Readers

A reader hands out the bytes it holds, in order, as many at a time as its rule allows; a call that
hands out none means that there are no more.  A call may also be interrupted, which is not a
failure: whoever reads tries again.  Interruptions are listed by the number of the call, so there
are finitely many, and that is why filling a buffer ends.

`fill` is the loop every consumer runs: it asks again and again until it has what it wants, the
bytes end, or the reader fails.  Its result says which of the three happened, and keeps what was
read before.
-/
import Envelope.Bytes
import Envelope.Transport.Pace

namespace Envelope

/-- A source of bytes, and where it stands. -/
structure Reader where
  unread : Bytes
  /-- The calls made so far, interrupted and failed ones included. -/
  calls : Nat := 0
  /-- The calls that handed out bytes, or found that there are no more. -/
  returned : Nat := 0
  /-- The number of bytes handed out. -/
  delivered : Nat := 0
  /-- The numbers of the calls that are interrupted. -/
  interrupts : List Nat := []
  rule : Rule := fun _ _ _ asked => .ok asked

/-- What one call of a reader comes to. -/
inductive ReadOutcome where
  | interrupted
  | failed (e : TransportError)
  /-- Some bytes; none at the end. -/
  | bytes (bs : Bytes)
  deriving DecidableEq, Repr

/-- Why filling a buffer stopped. -/
inductive Stop where
  /-- There is as much as was wanted. -/
  | full
  /-- There are no more bytes. -/
  | ended
  | failed (e : TransportError)
  deriving DecidableEq, Repr

namespace Reader

/-- A reader of some bytes at a pace. -/
def paced (bytes : Bytes) (pace : Pace) (interrupts : List Nat) : Reader :=
  { unread := bytes, interrupts, rule := pace.rule }

/-- The interruptions that are still to come. -/
def interruptsLeft (r : Reader) : Nat :=
  (r.interrupts.filter (r.calls ≤ ·)).length

/-- One call that asks for at most `asked` bytes. -/
def read (asked : Nat) (r : Reader) : ReadOutcome × Reader :=
  if r.calls ∈ r.interrupts then (.interrupted, { r with calls := r.calls + 1 })
  else
    match r.rule r.calls r.returned r.delivered (min asked r.unread.length) with
    | .error e => (.failed e, { r with calls := r.calls + 1 })
    | .ok n =>
      let n := min n (min asked r.unread.length)
      (.bytes (r.unread.take n),
        { r with
          unread := r.unread.drop n, calls := r.calls + 1, returned := r.returned + 1
          delivered := r.delivered + n })

/-! ## 1. Why filling ends -/

/-- **An interrupted call uses up an interruption** and no bytes. -/
theorem interruptsLeft_read {asked : Nat} {r r' : Reader}
    (h : r.read asked = (.interrupted, r')) :
    r'.unread = r.unread ∧ r'.interruptsLeft < r.interruptsLeft := by
  unfold read at h
  split at h
  · rename_i hmem
    obtain rfl := (Prod.mk.injEq .. ▸ h).2
    exact ⟨rfl, length_filter_succ_lt hmem⟩
  · split at h <;> simp at h

/-- **A call that hands out bytes has fewer left.** -/
theorem length_unread_read {asked : Nat} {r r' : Reader} {bs : Bytes}
    (h : r.read asked = (.bytes bs, r')) : bs.length + r'.unread.length = r.unread.length := by
  unfold read at h
  split at h
  · simp at h
  · split at h
    · simp at h
    · simp only [Prod.mk.injEq, ReadOutcome.bytes.injEq] at h
      obtain ⟨rfl, rfl⟩ := h
      simp only [List.length_take, List.length_drop]
      omega

/-- A call that fails has as many left as before. -/
theorem unread_read_failed {asked : Nat} {r r' : Reader} {e : TransportError}
    (h : r.read asked = (.failed e, r')) : r'.unread = r.unread := by
  unfold read at h
  split at h
  · simp at h
  · split at h
    · obtain rfl := (Prod.mk.injEq .. ▸ h).2
      rfl
    · simp at h

/-! ## 2. Filling -/

/-- **Bytes until there are `wanted`**, with the reason why no more were read.  A reader is not
called when nothing is wanted. -/
def fill (wanted : Nat) (r : Reader) : Bytes × Stop × Reader :=
  if _hw : wanted = 0 then ([], .full, r)
  else
    match _h : r.read wanted with
    | (.interrupted, r') => fill wanted r'
    | (.failed e, r') => ([], .failed e, r')
    | (.bytes bs, r') =>
      if _hb : bs = [] then ([], .ended, r')
      else
        let (more, stop, r'') := fill (wanted - bs.length) r'
        (bs ++ more, stop, r'')
termination_by (r.unread.length, r.interruptsLeft)
decreasing_by
  · obtain ⟨hu, hi⟩ := interruptsLeft_read _h
    rw [hu]
    exact Prod.Lex.right _ hi
  · have hl := length_unread_read _h
    have : 0 < bs.length := List.length_pos_iff.mpr _hb
    exact Prod.Lex.left _ _ (by omega)

/-- **No byte is lost or invented by filling.** -/
theorem length_fill (wanted : Nat) (r : Reader) :
    (r.fill wanted).1.length + (r.fill wanted).2.2.unread.length = r.unread.length := by
  fun_induction fill wanted r with
  | case1 => simp
  | case2 _ r _ r' h ih => rw [ih, (interruptsLeft_read h).1]
  | case3 _ r _ e r' h => simpa using congrArg List.length (unread_read_failed h)
  | case4 _ r _ r' h => simpa using length_unread_read h
  | case5 _ r _ bs r' h _ more stop r'' hfill ih =>
    have hl := length_unread_read h
    rw [hfill] at ih
    simp only [List.length_append] at ih ⊢
    omega

end Reader

end Envelope

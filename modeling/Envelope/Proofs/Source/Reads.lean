/-
# Reading on

Behind the header a stream is read in calls of any size, and each of them may come to a few bytes,
to an interruption, or to the end.  This module says what such calls come to together, without
looking at the loop that makes them: `reads` is any list of calls, and `Yields` says that whoever
makes them gets the bytes to come in their order, and after them the reader's own end or failure.

One call either takes at least one byte off what is to come, or uses up an interruption, or meets
the end (`Delivers.read`).  So there is a number of calls after which nothing is left, and it is the
number of bytes and of interruptions together (`Delivers.reads`).  The loop that asks for everything
makes enough of them, since it never asks for nothing (`Delivers.rest`).
-/
import Envelope.Proofs.Source

namespace Envelope

/-! ## 1. Interruptions -/

namespace Reader

/-- A call brings no interruptions. -/
theorem interruptsLeft_read_le {asked : Nat} {r r' : Reader} {outcome : ReadOutcome}
    (h : r.read asked = (outcome, r')) : r'.interruptsLeft ≤ r.interruptsLeft := by
  have hlater : r'.interrupts = r.interrupts ∧ r'.calls = r.calls + 1 := by
    unfold read at h
    split at h
    · obtain ⟨-, rfl⟩ := Prod.mk.inj h
      exact ⟨rfl, rfl⟩
    · split at h
      · obtain ⟨-, rfl⟩ := Prod.mk.inj h
        exact ⟨rfl, rfl⟩
      · obtain ⟨-, rfl⟩ := Prod.mk.inj h
        exact ⟨rfl, rfl⟩
  obtain ⟨hinterrupts, hcalls⟩ := hlater
  rw [interruptsLeft, interruptsLeft, hinterrupts, hcalls]
  refine (List.monotone_filter_right r.interrupts ?_).length_le
  intro n hn
  rw [decide_eq_true_eq] at hn ⊢
  omega

end Reader

/-- Why reading stops behind the last byte. -/
def Stop.last : Option TransportError → Stop
  | none => .ended
  | some e => .failed e

/-- There is room to ask for something, as long as stretches may have a length. -/
theorem Room.asked_pos {room : Room} (h : 0 < room.limit) : 0 < room.asked := by
  have hgrown : room.held + step ≤ room.grown := by
    unfold grown
    split
    · exact Nat.le_max_right _ _
    · omega
  have hstep : step = 32 := rfl
  unfold asked
  split
  · omega
  · omega

/-- The limit only rises. -/
theorem Room.limit_add_pos {room : Room} {n : Nat} (h : 0 < room.limit) :
    0 < (room.add n).limit := by
  unfold add
  split
  · exact h
  · dsimp only
    split
    · omega
    · exact h

namespace StreamSource

/-! ## 2. One call -/

/-- **What a call may come to while `d` is to come from `s`**, and what is to come from the source
it leaves: all of it after an interruption, the rest behind a piece of it, or nothing at the end. -/
def Leaves (s : StreamSource) (d : Bytes) (failure : Option TransportError) (s' : StreamSource) :
    ReadOutcome → Prop
  | .interrupted =>
    s'.Delivers d failure ∧ s'.reader.interruptsLeft < s.reader.interruptsLeft
  | .failed e => d = [] ∧ failure = some e
  | .bytes [] => d = [] ∧ failure = none
  | .bytes (b :: bs) =>
    ∃ d', d = b :: bs ++ d' ∧ s'.Delivers d' failure ∧
      s'.reader.interruptsLeft ≤ s.reader.interruptsLeft

variable {s : StreamSource} {d : Bytes} {failure : Option TransportError}

/-- A call that is served from the queue. -/
theorem read_of_replay (hne : s.replay ≠ []) {asked : Nat} (ha : 0 < asked) :
    s.read asked =
      (.bytes (s.replay.take asked),
        { s with
          replay := s.replay.drop asked
          consumed := s.consumed + (s.replay.take asked).length }) := by
  unfold read
  rw [if_neg (by omega), if_pos hne]

/-- A call that is passed on to the reader. -/
theorem read_of_reader (hnil : s.replay = []) {asked : Nat} (ha : 0 < asked) {outcome : ReadOutcome}
    {s' : StreamSource} (h : s.read asked = (outcome, s')) :
    ∃ reader, s.reader.read asked = (outcome, reader) ∧ s'.reader = reader ∧ s'.replay = [] := by
  unfold read at h
  rw [if_neg (by omega), if_neg (by simp [hnil])] at h
  split at h
  · rename_i bs reader hread
    obtain ⟨rfl, rfl⟩ := Prod.mk.inj h
    exact ⟨reader, hread, rfl, hnil⟩
  · rename_i outcome' reader _ hread
    obtain ⟨rfl, rfl⟩ := Prod.mk.inj h
    exact ⟨reader, hread, rfl, hnil⟩

/-- **One call**, from the queue or from the reader. -/
theorem Delivers.read (h : s.Delivers d failure) {asked : Nat} (ha : 0 < asked)
    {outcome : ReadOutcome} {s' : StreamSource} (hr : s.read asked = (outcome, s')) :
    s.Leaves d failure s' outcome := by
  obtain ⟨fresh, rfl, hd⟩ := h
  by_cases hnil : s.replay = []
  · obtain ⟨reader, hread, rfl, hs'⟩ := read_of_reader hnil ha hr
    have hleft := hd.read ha hread
    have hfewer := Reader.interruptsLeft_read_le hread
    rw [hnil, List.nil_append]
    cases outcome with
    | interrupted =>
      obtain ⟨-, hless⟩ := Reader.interruptsLeft_read hread
      refine ⟨⟨fresh, ?_, hleft⟩, hless⟩
      rw [hs', List.nil_append]
    | failed e =>
      obtain ⟨hend, hfailure, -⟩ := hleft
      exact ⟨hend, hfailure⟩
    | bytes bs =>
      cases bs with
      | nil =>
        obtain ⟨hend, hfailure, -⟩ := hleft
        exact ⟨hend, hfailure⟩
      | cons b bs =>
        obtain ⟨d', hd', -, hrest⟩ := hleft
        refine ⟨d', hd', ⟨d', ?_, hrest⟩, hfewer⟩
        rw [hs', List.nil_append]
  · rw [read_of_replay hnil ha] at hr
    obtain ⟨rfl, rfl⟩ := Prod.mk.inj hr
    cases hfront : s.replay.take asked with
    | nil =>
      have hlen := congrArg List.length hfront
      have hpos : 0 < s.replay.length := List.length_pos_iff.mpr hnil
      rw [List.length_take, List.length_nil] at hlen
      omega
    | cons b bs =>
      refine ⟨s.replay.drop asked ++ fresh, ?_, ⟨fresh, rfl, hd⟩, Nat.le_refl _⟩
      rw [← hfront, ← List.append_assoc, List.take_append_drop]

/-! ## 3. Calls one after the other -/

/-- **What a list of calls comes to**: the bytes they hand out together, and why they stopped.
`Stop.full` says that there were no more calls. -/
def reads : (calls : List Nat) → StreamSource → Bytes × Stop
  | [], _ => ([], .full)
  | asked :: calls, s =>
    match s.read asked with
    | (.interrupted, s) => reads calls s
    | (.failed e, _) => ([], .failed e)
    | (.bytes bs, s) =>
      if bs = [] then ([], .ended)
      else (bs ++ (reads calls s).1, (reads calls s).2)

/-- **Calls hand out the front of what is to come.**  They stop because there are no more of them,
and then they were not more than there are bytes and interruptions, or because all of it was handed
out and the reader has ended or failed. -/
theorem Delivers.reads (h : s.Delivers d failure) {calls : List Nat}
    (hpos : ∀ n ∈ calls, 0 < n) :
    ∃ d', d = (s.reads calls).1 ++ d' ∧
      ((s.reads calls).2 = .full ∧ calls.length ≤ d.length + s.reader.interruptsLeft ∨
        d' = [] ∧ (s.reads calls).2 = .last failure) := by
  induction calls generalizing s d with
  | nil => exact ⟨d, rfl, Or.inl ⟨rfl, Nat.zero_le _⟩⟩
  | cons asked calls ih =>
    have ha : 0 < asked := hpos asked List.mem_cons_self
    have hmore : ∀ n ∈ calls, 0 < n := fun n hn => hpos n (List.mem_cons_of_mem _ hn)
    obtain ⟨outcome, s', hread⟩ : ∃ outcome s', s.read asked = (outcome, s') := ⟨_, _, rfl⟩
    have hleft := h.read ha hread
    simp only [StreamSource.reads, hread, List.length_cons]
    cases outcome with
    | interrupted =>
      obtain ⟨hd, hless⟩ := hleft
      obtain ⟨d', hd', hstop⟩ := ih hd hmore
      refine ⟨d', hd', ?_⟩
      rcases hstop with ⟨hfull, hlen⟩ | hend
      · exact Or.inl ⟨hfull, by omega⟩
      · exact Or.inr hend
    | failed e =>
      obtain ⟨rfl, rfl⟩ := hleft
      exact ⟨[], rfl, Or.inr ⟨rfl, rfl⟩⟩
    | bytes bs =>
      cases bs with
      | nil =>
        obtain ⟨rfl, rfl⟩ := hleft
        exact ⟨[], rfl, Or.inr ⟨rfl, rfl⟩⟩
      | cons b bs =>
        obtain ⟨behind, rfl, hd, hfewer⟩ := hleft
        obtain ⟨d', hd', hstop⟩ := ih hd hmore
        simp only [if_neg (List.cons_ne_nil b bs)]
        refine ⟨d', by rw [List.append_assoc, ← hd'], ?_⟩
        rcases hstop with ⟨hfull, hlen⟩ | hend
        · refine Or.inl ⟨hfull, ?_⟩
          rw [List.length_append, List.length_cons]
          omega
        · exact Or.inr hend

/-- **Reading on yields `d`, and then the reader's own end or failure**: whatever calls are made,
what they hand out is the front of `d`; and as soon as there are more of them than there are bytes
and interruptions, it is all of `d`, and they have met the end. -/
def Yields (s : StreamSource) (d : Bytes) (failure : Option TransportError) : Prop :=
  ∀ calls : List Nat, (∀ n ∈ calls, 0 < n) →
    (s.reads calls).1 <+: d ∧
      (d.length + s.reader.interruptsLeft < calls.length → s.reads calls = (d, .last failure))

/-- What is to come from a source is what reading on yields. -/
theorem Delivers.yields (h : s.Delivers d failure) : s.Yields d failure := by
  intro calls hpos
  obtain ⟨d', hd', hstop⟩ := h.reads hpos
  refine ⟨⟨d', hd'.symm⟩, ?_⟩
  intro henough
  rcases hstop with ⟨-, hlen⟩ | ⟨rfl, hlast⟩
  · omega
  · rw [List.append_nil] at hd'
    exact Prod.ext hd'.symm hlast

/-! ## 4. Everything that is left -/

/-- What asking for everything comes to: the bytes, or the failure behind them. -/
def everything (d : Bytes) : Option TransportError → Except TransportError Bytes
  | none => .ok d
  | some e => .error e

/-- Asking for everything, with room for something, gives everything. -/
theorem Delivers.drain {room : Room} (h : s.Delivers d failure) (hroom : 0 < room.limit) :
    (s.drain room).1 = everything d failure := by
  fun_induction StreamSource.drain room s generalizing d with
  | case1 room s s' hread ih =>
    obtain ⟨hd, -⟩ := h.read (Room.asked_pos hroom) hread
    exact ih hd hroom
  | case2 room s e s' hread =>
    obtain ⟨-, rfl⟩ := h.read (Room.asked_pos hroom) hread
    rfl
  | case3 room s s' hread =>
    obtain ⟨rfl, rfl⟩ := h.read (Room.asked_pos hroom) hread
    rfl
  | case4 room s bs s' hread hbs more s'' hdrain ih =>
    obtain ⟨b, bs, rfl⟩ := List.exists_cons_of_ne_nil hbs
    obtain ⟨behind, rfl, hd, -⟩ := h.read (Room.asked_pos hroom) hread
    have hmore := ih hd (Room.limit_add_pos hroom)
    rw [hdrain] at hmore
    obtain rfl : more = everything behind failure := hmore
    cases failure with
    | none => rfl
    | some e => rfl

/-- **Whoever asks for everything gets all that is to come**, or the reader's failure. -/
theorem Delivers.rest (h : s.Delivers d failure) : s.rest.1 = everything d failure :=
  h.drain (by decide)

end StreamSource

end Envelope

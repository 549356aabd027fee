/-
# What a reader delivers

A reader is a rule, and a rule may do anything: hand out its bytes in pieces of every size, fail at
some point, or end early.  What a consumer can rely on is said here, without the rule: `r.Delivers d
failure` means that the bytes still to come from `r` are exactly `d`, in pieces of at least one
byte, with any finite number of interruptions between them, and that then the reader ends, or fails
with the given error and goes on failing.  A rule is held to this from the place where the reader
stands, and from its number of calls on: what it did before is of no account.

* One call takes the next piece off the front, or uses up an interruption, or meets the end
  (`Delivers.read`); whichever it is, the reader it leaves delivers the rest (`Leaves`).
* So filling a buffer takes *as many bytes as it wants*, however they were cut (`Delivers.fill`):
  fragmentation and interruptions are invisible from here on, and no later proof mentions a rule.
* Every reader at a pace of positive sizes is such a reader (`delivers_paced`), and so is one that
  breaks at some point, for the bytes in front of that point (`delivers_paced_failing`).
-/
import Mathlib
import Envelope.Transport.Reader

namespace Envelope

/-- Why filling stops that wants `wanted` of the bytes `d`. -/
def Stop.after (wanted : Nat) (d : Bytes) (failure : Option TransportError) : Stop :=
  if wanted ≤ d.length then .full
  else
    match failure with
    | none => .ended
    | some e => .failed e

/-- A bound from a list of positive sizes is positive when something is asked for. -/
theorem Pace.sizeBound_pos {sizes : List Nat} (hs : ∀ n ∈ sizes, 0 < n) (returned : Nat)
    {asked : Nat} (ha : 0 < asked) : 0 < Pace.sizeBound sizes returned asked := by
  unfold sizeBound
  split
  · exact ha
  · rename_i hne
    have hlen : 0 < sizes.length := List.length_pos_iff.mpr (by simpa using hne)
    have hlt : returned % sizes.length < sizes.length := Nat.mod_lt _ hlen
    have hget := hs _ (List.getElem_mem hlt)
    rw [List.getD_eq_getElem?_getD, List.getElem?_eq_getElem hlt, Option.getD_some]
    omega

/-- A bound is no more than what is asked for. -/
theorem Pace.sizeBound_le (sizes : List Nat) (returned asked : Nat) :
    Pace.sizeBound sizes returned asked ≤ asked := by
  unfold sizeBound
  split
  · exact Nat.le_refl _
  · exact Nat.min_le_left _ _

namespace Reader

/-! ## 1. Delivering -/

/-- **The bytes to come from a reader are `d`**, in pieces of any size but none, and after them it
ends, or fails if `failure` is given.  The rule is only held to this where a run can get: from the
calls made so far and the place where the reader stands to the end of `d`, and with requests that
the unread bytes can meet. -/
structure Delivers (r : Reader) (d : Bytes) (failure : Option TransportError) : Prop where
  unread : ∃ beyond, r.unread = d ++ beyond ∧ (failure = none → beyond = [])
  goesOn : ∀ calls returned moved asked, r.calls ≤ calls →
    r.delivered ≤ moved → moved < r.delivered + d.length →
    0 < asked → moved + asked ≤ r.delivered + r.unread.length →
    ∃ n, r.rule calls returned moved asked = .ok n ∧ 0 < n ∧
      moved + min n asked ≤ r.delivered + d.length
  stops : ∀ calls returned asked, r.calls ≤ calls → d.length + asked ≤ r.unread.length →
    match failure with
    | none => ∃ n, r.rule calls returned (r.delivered + d.length) asked = .ok n
    | some e => r.rule calls returned (r.delivered + d.length) asked = .error e

variable {r : Reader} {d : Bytes} {failure : Option TransportError}

/-- The bytes of `d` are there. -/
theorem Delivers.length_le (h : r.Delivers d failure) : d.length ≤ r.unread.length := by
  obtain ⟨beyond, hu, -⟩ := h.unread
  rw [hu, List.length_append]
  omega

/-- A call that moves no byte changes nothing of what is delivered. -/
theorem Delivers.of_stay (h : r.Delivers d failure) {r' : Reader} (hu : r'.unread = r.unread)
    (hc : r.calls ≤ r'.calls) (hd : r'.delivered = r.delivered) (hr : r'.rule = r.rule) :
    r'.Delivers d failure := by
  refine ⟨?_, ?_, ?_⟩
  · rw [hu]; exact h.unread
  · rw [hu, hd, hr]
    exact fun calls returned moved asked hcalls =>
      h.goesOn calls returned moved asked (hc.trans hcalls)
  · rw [hu, hd, hr]
    exact fun calls returned asked hcalls => h.stops calls returned asked (hc.trans hcalls)

/-- **A call that moves `n` of the bytes leaves the others to be delivered.** -/
theorem Delivers.of_move (h : r.Delivers d failure) {r' : Reader} {n : Nat} (hn : n ≤ d.length)
    (hu : r'.unread = r.unread.drop n) (hc : r.calls ≤ r'.calls)
    (hd : r'.delivered = r.delivered + n) (hr : r'.rule = r.rule) :
    r'.Delivers (d.drop n) failure := by
  have hle := h.length_le
  have hpoint : r'.delivered + (d.drop n).length = r.delivered + d.length := by
    rw [hd, List.length_drop]; omega
  have htotal : r'.delivered + r'.unread.length = r.delivered + r.unread.length := by
    rw [hd, hu, List.length_drop]; omega
  refine ⟨?_, ?_, ?_⟩
  · obtain ⟨beyond, hb, hnone⟩ := h.unread
    exact ⟨beyond, by rw [hu, hb, List.drop_append_of_le_length hn], hnone⟩
  · intro calls returned moved asked hcalls hlow hhigh hpos hfit
    rw [hpoint] at hhigh
    rw [htotal] at hfit
    rw [hr, hpoint]
    exact h.goesOn calls returned moved asked (hc.trans hcalls) (by omega) hhigh hpos hfit
  · intro calls returned asked hcalls hfit
    rw [List.length_drop] at hfit
    rw [hr, hpoint]
    exact h.stops calls returned asked (hc.trans hcalls) (by omega)

/-! ## 2. One call -/

/-- **What a call for `asked` bytes may come to while `d` is to come**, and what is to come from the
reader it leaves: everything after an interruption, nothing after the end, or the rest behind a
piece of `d`. -/
def Leaves (d : Bytes) (failure : Option TransportError) (asked : Nat) (r' : Reader) :
    ReadOutcome → Prop
  | .interrupted => r'.Delivers d failure
  | .failed e => d = [] ∧ failure = some e ∧ r'.Delivers [] failure
  | .bytes [] => d = [] ∧ failure = none ∧ r'.Delivers [] failure
  | .bytes (b :: bs) =>
    ∃ d', d = b :: bs ++ d' ∧ (b :: bs).length ≤ asked ∧ r'.Delivers d' failure

/-- **One call.** -/
theorem Delivers.read (h : r.Delivers d failure) {asked : Nat} (ha : 0 < asked)
    {outcome : ReadOutcome} {r' : Reader} (hr : r.read asked = (outcome, r')) :
    Leaves d failure asked r' outcome := by
  have hle := h.length_le
  obtain ⟨beyond, hu, hnone⟩ := h.unread
  unfold Reader.read at hr
  split at hr
  · obtain ⟨rfl, rfl⟩ := Prod.mk.inj hr
    exact h.of_stay rfl (Nat.le_succ _) rfl rfl
  · by_cases hd : d = []
    · subst hd
      have hs := h.stops r.calls r.returned (min asked r.unread.length) (Nat.le_refl _) (by simp)
      rw [List.length_nil, Nat.add_zero] at hs
      cases failure with
      | none =>
        obtain ⟨n, hn⟩ := hs
        have hnil : r.unread = [] := by rw [hu, hnone rfl]; rfl
        rw [hn] at hr
        simp only [hnil, List.length_nil, Nat.min_zero, List.take_nil, List.drop_nil,
          Nat.add_zero] at hr
        obtain ⟨rfl, rfl⟩ := Prod.mk.inj hr
        exact ⟨rfl, rfl, h.of_stay hnil.symm (Nat.le_succ _) rfl rfl⟩
      | some e =>
        simp only at hs
        rw [hs] at hr
        obtain ⟨rfl, rfl⟩ := Prod.mk.inj hr
        exact ⟨rfl, rfl, h.of_stay rfl (Nat.le_succ _) rfl rfl⟩
    · have hpos : 0 < d.length := List.length_pos_iff.mpr hd
      obtain ⟨n, hn, hn0, hfit⟩ := h.goesOn r.calls r.returned r.delivered
        (min asked r.unread.length) (Nat.le_refl _) (Nat.le_refl _) (by omega) (by omega) (by omega)
      obtain ⟨k, hk⟩ : ∃ k, k = min n (min asked r.unread.length) := ⟨_, rfl⟩
      have hmoved : k ≤ d.length := by omega
      have htake : r.unread.take k = d.take k := by
        rw [hu, List.take_append_of_le_length hmoved]
      have hlen : (d.take k).length = k := by rw [List.length_take]; omega
      simp only [hn, ← hk, htake] at hr
      obtain ⟨rfl, rfl⟩ := Prod.mk.inj hr
      cases hpiece : d.take k with
      | nil =>
        rw [hpiece, List.length_nil] at hlen
        omega
      | cons b bs =>
        rw [hpiece] at hlen
        refine ⟨d.drop k, ?_, by omega, h.of_move hmoved rfl (Nat.le_succ _) rfl rfl⟩
        rw [← hpiece, List.take_append_drop]

/-! ## 3. Filling -/

/-- **Filling takes as many bytes as it wants, however they are cut.**  What is left is delivered to
whoever reads next. -/
theorem Delivers.fill (h : r.Delivers d failure) (wanted : Nat) :
    ∃ r', r.fill wanted = (d.take wanted, .after wanted d failure, r') ∧
      r'.Delivers (d.drop wanted) failure := by
  fun_induction Reader.fill wanted r generalizing d with
  | case1 r => exact ⟨r, by simp [Stop.after], by simpa using h⟩
  | case2 wanted r hw r' hr ih => exact ih (h.read (Nat.pos_of_ne_zero hw) hr)
  | case3 wanted r hw e r' hr =>
    obtain ⟨rfl, rfl, hd⟩ := h.read (Nat.pos_of_ne_zero hw) hr
    exact ⟨r', by simp [Stop.after, hw], by simpa using hd⟩
  | case4 wanted r hw r' hr =>
    obtain ⟨rfl, rfl, hd⟩ := h.read (Nat.pos_of_ne_zero hw) hr
    exact ⟨r', by simp [Stop.after, hw], by simpa using hd⟩
  | case5 wanted r hw bs r' hr hbs more stop r'' hfill ih =>
    obtain ⟨b, bs, rfl⟩ := List.exists_cons_of_ne_nil hbs
    obtain ⟨d', rfl, hlen, hd⟩ := h.read (Nat.pos_of_ne_zero hw) hr
    obtain ⟨r₂, h₂, hd₂⟩ := ih hd
    rw [hfill] at h₂
    simp only [Prod.mk.injEq] at h₂
    obtain ⟨rfl, rfl, rfl⟩ := h₂
    refine ⟨r'', ?_, ?_⟩
    · rw [List.take_append, List.take_of_length_le hlen]
      simp only [Stop.after, List.length_append, Nat.sub_le_iff_le_add']
    · rwa [List.drop_append, List.drop_of_length_le hlen, List.nil_append]

/-! ## 4. Paced readers -/

/-- **A reader that never fails, and hands out at least one byte whenever there are any, delivers
all its bytes**, whatever its rule and its interruptions are. -/
theorem delivers_of_rule {r : Reader} (h : ∀ calls returned moved asked, ∃ n,
    r.rule calls returned moved asked = .ok n ∧ (0 < asked → 0 < n)) :
    r.Delivers r.unread none := by
  refine ⟨⟨[], by rw [List.append_nil], fun _ => rfl⟩, ?_, ?_⟩
  · intro calls returned moved asked _ _ _ hpos hfit
    obtain ⟨n, hn, hn0⟩ := h calls returned moved asked
    exact ⟨n, hn, hn0 hpos, by omega⟩
  · intro calls returned asked _ _
    obtain ⟨n, hn, -⟩ := h calls returned (r.delivered + r.unread.length) asked
    exact ⟨n, hn⟩

/-- A reader at a pace of positive sizes delivers all its bytes. -/
theorem delivers_paced (bytes : Bytes) (interrupts : List Nat) {sizes : List Nat}
    (hs : ∀ n ∈ sizes, 0 < n) : (paced bytes { sizes } interrupts).Delivers bytes none :=
  delivers_of_rule (r := paced bytes { sizes } interrupts) fun _ returned _ asked =>
    ⟨Pace.sizeBound sizes returned asked, rfl, fun ha => Pace.sizeBound_pos hs returned ha⟩

/-- **A reader that breaks at a point of its bytes delivers those in front of it**, and then
fails. -/
theorem delivers_paced_failing (front behind : Bytes) (interrupts : List Nat) {sizes : List Nat}
    (hs : ∀ n ∈ sizes, 0 < n) (e : TransportError) :
    (paced (front ++ behind) { sizes, failure := some (front.length, e) } interrupts).Delivers
      front (some e) := by
  obtain ⟨pace, hpace⟩ : ∃ pace : Pace, pace = { sizes, failure := some (front.length, e) } :=
    ⟨_, rfl⟩
  have hbefore : ∀ calls returned moved asked, moved < front.length →
      pace.rule calls returned moved asked =
        .ok (Pace.sizeBound sizes returned (min asked (front.length - moved))) := by
    intro calls returned moved asked hlt
    rw [hpace, Pace.rule]
    simp only [if_neg (by omega : ¬ front.length ≤ moved)]
    rfl
  have hat : ∀ calls returned asked,
      pace.rule calls returned (0 + front.length) asked = .error e := by
    intro calls returned asked
    rw [hpace, Pace.rule]
    simp only [if_pos (by omega : front.length ≤ 0 + front.length)]
    rfl
  have hstart : (paced (front ++ behind) pace interrupts).delivered = 0 := rfl
  rw [← hpace]
  refine ⟨⟨behind, rfl, by simp⟩, ?_, ?_⟩
  · intro calls returned moved asked _ _ hhigh hpos _
    rw [hstart] at hhigh ⊢
    have hle := Pace.sizeBound_le sizes returned (min asked (front.length - moved))
    have hroom : 0 < min asked (front.length - moved) := by omega
    have hpositive := Pace.sizeBound_pos hs returned hroom
    exact ⟨_, hbefore calls returned moved asked (by omega), hpositive, by omega⟩
  · intro calls returned asked _ _
    exact hat calls returned asked

end Reader

end Envelope

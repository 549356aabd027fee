/-
# How much is taken for a header

Whoever reads a header from a stream goes on reading the body from the same reader, so a header
must not take a byte behind it; and since the lengths in it are written by somebody else, it must
not take more than a header can have, whatever they say.  Both are said here without a word about
what the reader does: it may cut its bytes in any way, end before they do, go on after it has ended,
or break.

* *However the reading ends*, what was taken from the reader is bounded (`Within`).  The bounds add
  up along a chain, field by field, and each field is as long as its length can be once it was
  judged.
* *If a header was found*, a reader that simply hands out the same bytes yields it as well
  (`Repeats`), so it is the header of these bytes, and what was taken is just this header.

The four bytes in place of the marker are looked at twice in the plain layout.  They are counted
once, since looking again does not ask the reader (`Header.decode_once`).
-/
import Envelope.Proofs.Header.Stream

namespace Envelope

/-! ## 1. A bound on what is taken -/

/-- **A reading that takes at most `n` bytes from the reader**, however it ends, and leaves nothing
to be served again. -/
def Scan.Within {α : Type} (n : Nat) (x : Scan StreamSource α) : Prop :=
  ∀ s, s.source.replay = [] →
    (leftBy (x s)).source.replay = [] ∧ ∃ taken, taken.length ≤ n ∧
      s.source.reader.HandsOut taken (leftBy (x s)).source.reader

namespace Scan.Within

variable {α β : Type} {m n : Nat}

theorem mono {x : Scan StreamSource α} (h : Within m x) (hle : m ≤ n) : Within n x := by
  intro s hs
  obtain ⟨hreplay, taken, hlength, hout⟩ := h s hs
  exact ⟨hreplay, taken, hlength.trans hle, hout⟩

/-- **The bounds add up along a chain.** -/
theorem bind {x : Scan StreamSource α} {f : α → Scan StreamSource β} (hx : Within m x)
    (hf : ∀ a, Within n (f a)) : Within (m + n) (x >>= f) := by
  intro s hs
  obtain ⟨hreplay, taken, hlength, hout⟩ := hx s hs
  cases h : x s with
  | ok a s' =>
    rw [h] at hreplay hout
    obtain ⟨hreplay', more, hmore, hout'⟩ := hf a s' hreplay
    rw [bind_of_ok h]
    refine ⟨hreplay', taken ++ more, ?_, hout.trans hout'⟩
    rw [List.length_append]
    omega
  | error e s' =>
    rw [h] at hreplay hout
    rw [bind_of_error h]
    exact ⟨hreplay, taken, by omega, hout⟩

/-- What leaves the source alone takes nothing. -/
theorem of_keeps {x : Scan StreamSource α} (h : Keeps (fun s => s.source) x) : Within 0 x := by
  intro s hs
  have hsource : (leftBy (x s)).source = s.source := h s
  rw [hsource]
  exact ⟨hs, [], Nat.le_refl _, .refl _⟩

theorem pure (a : α) : Within 0 (Pure.pure a : Scan StreamSource α) := of_keeps (.pure a)

theorem throw (e : Failure) : Within 0 (throw e : Scan StreamSource α) := of_keeps (.throw e)

theorem asking (r : Resolver) (name : String) :
    Within 0 (Scan.asking (r.key name) : Scan StreamSource Key) := by
  refine of_keeps fun s => ?_
  rw [asking_key]
  cases r.answer s.asked name <;> rfl

/-- **A field takes no more than its length**, also when it is not complete. -/
theorem bytes (n : Nat) : Within n (Scan.bytes n) := by
  intro s hs
  have hout := s.source.reader.handsOut_fill n
  have hlength := (s.source.reader.length_fill_le n).1
  rw [Scan.bytes, onSource_eq]
  simp only [Source.take, StreamSource.take, StreamSource.fetch_of_nil hs]
  cases (s.source.reader.fill n).2.1 with
  | full =>
    exact ⟨by simpa using hs, _, hlength, by simpa using hout⟩
  | ended => exact ⟨hs, _, hlength, hout⟩
  | failed e => exact ⟨hs, _, hlength, hout⟩

theorem byte : Within 1 (Scan.byte : Scan StreamSource UInt8) := by
  rw [byte_eq]
  exact (bytes 1).bind fun _ => pure _

theorem int32 : Within 4 (Scan.int32 : Scan StreamSource Int) := by
  rw [int32_eq]
  exact (bytes 4).bind fun _ => pure _

end Scan.Within

/-- Behind the total length there are the length of the nonce, the nonce, the length of the name and
the name. -/
theorem PlainHeader.within_afterLength (total : Int) :
    Scan.Within (4 + (maxNonce + (4 + maxKeyName)))
      (afterLength total : Scan StreamSource PlainHeader) := by
  have hname : ∀ total before, Scan.Within (4 + maxKeyName)
      (decodeKeyName total before : Scan StreamSource (Option String)) := by
    intro total before
    rw [decodeKeyName_eq]
    split
    · exact (Scan.Within.pure none).mono (Nat.zero_le _)
    · refine Scan.Within.int32.bind fun length => ?_
      split
      · exact (Scan.Within.throw _).mono (Nat.zero_le _)
      · refine ((Scan.Within.bytes length.toNat).bind (n := 0) fun name => ?_).mono (by omega)
        cases Bytes.toText? name with
        | some name => exact .pure _
        | none => exact .throw _
  unfold afterLength
  split
  · exact (Scan.Within.throw _).mono (Nat.zero_le _)
  · refine Scan.Within.int32.bind fun length => ?_
    split
    · exact (Scan.Within.throw _).mono (Nat.zero_le _)
    · refine ((Scan.Within.bytes length.toNat).mono (by omega)).bind fun nonce => ?_
      exact (hname _ _).bind (n := 0) fun keyName => .pure _

namespace AuthenticatedHeader

/-- The search for the end of the name gives up after the longest name. -/
theorem within_nameBytes (room : Nat) :
    Scan.Within (room + 1) (nameBytes room : Scan StreamSource Bytes) := by
  induction room with
  | zero =>
    rw [nameBytes_zero]
    refine Scan.Within.byte.bind (n := 0) fun b => ?_
    split
    · exact .pure _
    · exact .throw _
  | succ room ih =>
    rw [nameBytes_succ, Nat.add_comm]
    refine Scan.Within.byte.bind fun b => ?_
    split
    · exact (Scan.Within.pure _).mono (Nat.zero_le _)
    · exact ih.bind (n := 0) fun more => .pure _

/-- Behind the marker there are the name and its end, the length of the nonce, the nonce and the
tag. -/
theorem within_afterMarker (r : Resolver) :
    Scan.Within (maxKeyName + 1 + (1 + (maxNonce + headerTagWidth)))
      (afterMarker r : Scan StreamSource AuthenticatedHeader) := by
  have hname : Scan.Within (maxKeyName + 1)
      (decodeKeyName : Scan StreamSource (Bytes × String)) := by
    rw [decodeKeyName_eq]
    refine (within_nameBytes maxKeyName).bind (n := 0) fun raw => ?_
    split
    · exact .throw _
    · cases Bytes.toText? raw with
      | some name => exact .pure _
      | none => exact .throw _
  rw [afterMarker_eq]
  refine hname.bind fun name => ?_
  refine ((Scan.Within.asking r name.2).bind fun key => ?_).mono (Nat.zero_add _).le
  refine Scan.Within.byte.bind fun length => ?_
  -- one byte cannot announce more than the longest nonce
  have hnonce : length.toNat ≤ maxNonce := Nat.le_of_lt_succ length.toNat_lt
  refine ((Scan.Within.bytes length.toNat).mono hnonce).bind fun nonce => ?_
  refine (Scan.Within.bytes headerTagWidth).bind (n := 0) fun carried => ?_
  split
  · exact .pure _
  · exact .throw _

end AuthenticatedHeader

/-- **The longest header**: an authenticated one with the longest name and the longest nonce. -/
theorem Header.within_decode (r : Resolver) :
    Scan.Within (markerWidth + maxKeyName + 1 + 1 + maxNonce + headerTagWidth)
      (Header.decode r : Scan StreamSource Header) := by
  have honce : Scan.Within (4 + (maxKeyName + 1 + (1 + (maxNonce + headerTagWidth))))
      (Scan.int32 >>= Header.decodeAfter r : Scan StreamSource Header) := by
    refine Scan.Within.int32.bind fun number => ?_
    unfold Header.decodeAfter
    split
    · refine ((PlainHeader.within_afterLength number).bind (n := 0) fun h => .pure _).mono ?_
      decide
    · exact (AuthenticatedHeader.within_afterMarker r).bind (n := 0) fun h => .pure _
  intro s hs
  rw [Header.decode_once]
  exact honce (Scan.marked s) hs

/-! ## 2. What was found does not depend on how it was delivered -/

/-- **A reading that ends well on any stream ends so on one that just delivers the same bytes.** -/
def Scan.Repeats {α : Type} (x : Scan StreamSource α) : Prop :=
  ∀ s a s' t, x s = .ok a s' → t.asked = s.asked → t.source.Delivers s.source.unread none →
    ∃ t', x t = .ok a t' ∧ t'.asked = s'.asked ∧ t'.source.Delivers s'.source.unread none

namespace Scan.Repeats

variable {α β : Type}

theorem bind {x : Scan StreamSource α} {f : α → Scan StreamSource β} (hx : Repeats x)
    (hf : ∀ a, Repeats (f a)) : Repeats (x >>= f) := by
  intro s b s'' t h ha hd
  obtain ⟨a, s', hfirst, hrest⟩ := bind_eq_ok.mp h
  obtain ⟨t', ht', ha', hd'⟩ := hx s a s' t hfirst ha hd
  obtain ⟨t'', ht'', ha'', hd''⟩ := hf a s' b s'' t' hrest ha' hd'
  exact ⟨t'', by rw [bind_of_ok ht', ht''], ha'', hd''⟩

theorem pure (a : α) : Repeats (Pure.pure a : Scan StreamSource α) := by
  intro s b s' t h ha hd
  obtain ⟨rfl, rfl⟩ := EStateM.Result.ok.inj h
  exact ⟨t, rfl, ha, hd⟩

theorem throw (e : Failure) : Repeats (throw e : Scan StreamSource α) := by
  intro s b s' t h
  simp at h

theorem asking (r : Resolver) (name : String) :
    Repeats (Scan.asking (r.key name) : Scan StreamSource Key) := by
  intro s key s' t h ha hd
  obtain ⟨hkey, rfl⟩ := Scan.asking_key_eq_ok h
  refine ⟨note name t, ?_, by rw [note, note, ha], hd⟩
  rw [asking_key, ha, hkey]

theorem bytes (n : Nat) : Repeats (Scan.bytes n) := by
  intro s w s' t h ha hd
  rw [Scan.bytes, onSource_eq] at h
  cases hs : Source.take n s.source with
  | error e source => simp [hs] at h
  | ok w₁ source =>
    simp only [hs, EStateM.Result.ok.injEq] at h
    obtain ⟨rfl, rfl⟩ := h
    obtain ⟨hlength, hunread⟩ := LawfulSource.front hs
    have hall : s.source.unread = w₁ ++ source.unread := hunread
    rw [hall] at hd
    obtain ⟨replay, reader, hfetch, hd'⟩ := hd.fetch n
    have hstop : Stop.after n (w₁ ++ source.unread) none = .full := by
      rw [Stop.after, if_pos (by rw [List.length_append]; omega)]
    rw [List.take_left' hlength, hstop] at hfetch
    rw [List.drop_left' hlength] at hd'
    refine ⟨{ t with source := ({ t.source with replay, reader } : StreamSource).serve w₁ }, ?_, ha,
      (StreamSource.delivers_serve w₁).mpr hd'⟩
    rw [Scan.bytes, onSource_eq]
    simp only [Source.take, StreamSource.take, hfetch]

end Scan.Repeats

namespace Header

/-- **A header found on any stream is found on one that just delivers the same bytes.** -/
theorem repeats_decode (r : Resolver) : Scan.Repeats (decode r : Scan StreamSource Header) := by
  have honce : Scan.Repeats (Scan.int32 >>= decodeAfter r) :=
    decode_induction .bind .pure .bytes .asking .throw r
  intro s h s' t hd ha hdelivers
  rw [decode_once] at hd
  rw [decode_once]
  exact honce (Scan.marked s) h s' (Scan.marked t) hd ha hdelivers

/-! ## 3. What is taken -/

/-- **A header that any reader yields is the header of its bytes**, and the source stands behind
it. -/
theorem ofBytes_of_decode_any {r : Resolver} {reader : Reader} {asked : List String} {h : Header}
    {t : ScanState StreamSource} (hd : decode r ⟨StreamSource.ofReader reader, asked⟩ = .ok h t) :
    ofBytes r reader.unread asked = .ok (h, h.length) t.asked ∧
      t.source.unread = reader.unread.drop h.length := by
  have hplain : Reader.Delivers { unread := reader.unread } reader.unread none :=
    Reader.delivers_of_rule fun _ _ _ n => ⟨n, rfl, id⟩
  obtain ⟨t', ht', hasked, hleft⟩ := repeats_decode r _ h t
    ⟨StreamSource.ofReader { unread := reader.unread }, asked⟩ hd rfl
    (StreamSource.delivers_ofReader hplain)
  obtain ⟨hread, hrest, -, -⟩ := taken_of_decode hplain ht'
  refine ⟨hasked ▸ hread, ?_⟩
  exact (hleft.prefix_unread.2 rfl).trans (hrest.prefix_unread.2 rfl).symm

/-- **What a reader has handed out for a header that was found is the header**, and nothing waits to
be served again. -/
theorem handsOut_of_decode {r : Resolver} {reader : Reader} {asked : List String} {h : Header}
    {t : ScanState StreamSource} (hd : decode r ⟨StreamSource.ofReader reader, asked⟩ = .ok h t) :
    t.source.replay = [] ∧ ∃ taken, taken.length = h.length ∧
      reader.HandsOut taken t.source.reader := by
  obtain ⟨hqueue, taken, -, hhanded⟩ := within_decode r ⟨StreamSource.ofReader reader, asked⟩ rfl
  rw [hd] at hqueue hhanded
  have hreplay : t.source.replay = [] := hqueue
  have hout : reader.HandsOut taken t.source.reader := hhanded
  obtain ⟨hread, hunread⟩ := ofBytes_of_decode_any hd
  obtain ⟨hlength, -, -⟩ := ofBytes_eq_ok hread
  have hleft : t.source.reader.unread = reader.unread.drop h.length := by
    rw [← hunread, StreamSource.unread, hreplay]
    rfl
  have hall := congrArg List.length hout.unread
  rw [List.length_append, hleft, List.length_drop] at hall
  exact ⟨hreplay, taken, by omega, hout⟩

/-- **A header takes itself, and no more than a header can have.**  For every reader, whatever its
rule is, and for every resolver:

* If a header is found, exactly its length was taken from the reader and consumed, nothing waits to
  be served again, and so the reader stands at the first byte behind it.
* However the reading ends, at most as many bytes were taken as the longest header has. -/
theorem decode_takes (r : Resolver) (reader : Reader) (asked : List String) :
    (∀ h t, decode r ⟨StreamSource.ofReader reader, asked⟩ = .ok h t →
      t.source.consumed = h.length ∧ t.source.replay = [] ∧
        t.source.reader.unread = reader.unread.drop h.length ∧
        ∃ taken, taken.length = h.length ∧ reader.HandsOut taken t.source.reader) ∧
    ∃ taken, taken.length ≤ 793 ∧ reader.HandsOut taken
      (leftBy (decode r ⟨StreamSource.ofReader reader, asked⟩)).source.reader := by
  obtain ⟨-, taken, hbound, hhanded⟩ := within_decode r ⟨StreamSource.ofReader reader, asked⟩ rfl
  refine ⟨?_, taken, hbound, hhanded⟩
  intro h t hd
  obtain ⟨hreplay, taken, htaken, hout⟩ := handsOut_of_decode hd
  -- what was counted as consumed is what was taken
  obtain ⟨-, w, hw, hcount⟩ := straight_decode r _ _ _ hd rfl
  have hsame : w = taken := List.append_cancel_right (hw.symm.trans hout.unread)
  refine ⟨?_, hreplay, ?_, taken, htaken, hout⟩
  · rw [hcount, hsame, htaken]
    exact Nat.zero_add _
  · rw [hout.unread, List.drop_left' htaken]

/-- A plain header of nine bytes from a reader that hands out one byte at a time, is interrupted,
and breaks as soon as it is asked for a tenth: it is not asked. -/
theorem decode_takes_nine_bytes :
    ∃ (reader : Reader) (t : ScanState StreamSource), reader.unread.length = 12 ∧
      decode (.ofFunction fun _ => none) ⟨StreamSource.ofReader reader, []⟩ =
        .ok (.plain ⟨[5], none⟩) t ∧
      t.source.consumed = 9 ∧ t.source.replay = [] ∧ t.source.reader.unread = [1, 2, 3] := by
  obtain ⟨front, hfront⟩ : ∃ front, front = PlainHeader.encode ⟨[5], none⟩ := ⟨_, rfl⟩
  obtain ⟨reader, hreader⟩ : ∃ reader, reader = Reader.paced (front ++ [1, 2, 3])
      { sizes := [1], failure := some (front.length, ⟨.connectionReset, "gone"⟩) } [3] := ⟨_, rfl⟩
  have hb : Built (.plain ⟨[5], none⟩) := PlainHeader.new_eq_ok.mpr ⟨rfl, by decide, by simp⟩
  have hd : reader.Delivers front (some ⟨.connectionReset, "gone"⟩) := by
    rw [hreader]
    exact Reader.delivers_paced_failing front [1, 2, 3] [3] (by decide : ∀ n ∈ [1], 0 < n) _
  have halike := alike_ofBytes (.ofFunction fun _ => none) hd []
  have hmemory := ofBytes_plain hb (.ofFunction fun _ => none) [] []
  rw [List.append_nil, ← hfront] at hmemory
  rw [hmemory] at halike
  obtain ⟨_, t, hread, rfl, -⟩ := halike.of_ok
  obtain ⟨hfound, -⟩ := decode_takes (.ofFunction fun _ => none) reader []
  obtain ⟨hconsumed, hreplay, hunread, -⟩ := hfound _ t hread
  refine ⟨reader, t, by rw [hreader, hfront]; rfl, hread, hconsumed, hreplay, ?_⟩
  rw [hunread, hreader, hfront]
  rfl

end Header

end Envelope

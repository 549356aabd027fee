/-
# The first four bytes decide

Two layouts begin differently, and a reader of both must never take one for the other: a plain
header is not authenticated, so an authenticated one that is faulty in any way must not be given a
second chance as a plain one.  This module says what reading a header comes to, for every source
that keeps to the laws, in every state, and for every resolver (`dispatched`).

* Behind the marker there is only an authenticated header or a fault (`Judged`), and each fault says
  whether the resolver had been asked by then.  It is asked at most once, for the name in the bytes.
* Anything else is a plain header or a fault of one, exactly as if the marker had not been looked
  at.  The resolver is not asked, so it cannot matter.

The two failures that would show the machinery itself, a marker that was not expected and a way back
that is too long, occur in neither case.
-/
import Envelope.Proofs.Header
import Envelope.Proofs.Source.Lawful

namespace Envelope

variable {σ : Type} [Source σ] [LawfulSource σ]

/-! ## 1. Fields of a lawful source -/

namespace Scan

/-- **`w` is what was taken between the two states**, and nothing was asked. -/
def Takes (s : ScanState σ) (w : Bytes) (s' : ScanState σ) : Prop :=
  LawfulSource.unread s.source = w ++ LawfulSource.unread s'.source ∧ s'.asked = s.asked

theorem Takes.trans {s₁ s₂ s₃ : ScanState σ} {w₁ w₂ : Bytes} (h₁ : Takes s₁ w₁ s₂)
    (h₂ : Takes s₂ w₂ s₃) : Takes s₁ (w₁ ++ w₂) s₃ := by
  refine ⟨?_, h₂.2.trans h₁.2⟩
  rw [h₁.1, h₂.1, List.append_assoc]

/-- **What asking for bytes can come to.** -/
theorem bytes_outcome (n : Nat) (s : ScanState σ) :
    (∃ w s', bytes n s = .ok w s' ∧ w.length = n ∧ Takes s w s') ∨
      ∃ e s', bytes n s = .error e s' ∧ e.Undelivered ∧ s'.asked = s.asked := by
  rw [bytes, onSource_eq]
  cases h : Source.take n s.source with
  | ok w source =>
    obtain ⟨hl, hu⟩ := LawfulSource.front h
    exact Or.inl ⟨w, _, rfl, hl, hu, rfl⟩
  | error e source =>
    exact Or.inr ⟨e, _, rfl, LawfulSource.undelivered n _ _ _ h, rfl⟩

theorem byte_outcome (s : ScanState σ) :
    (∃ b s', byte s = .ok b s' ∧ Takes s [b] s') ∨
      ∃ e s', byte s = .error e s' ∧ e.Undelivered ∧ s'.asked = s.asked := by
  rw [byte_eq]
  rcases bytes_outcome 1 s with ⟨w, s', h, hl, htakes⟩ | ⟨e, s', h, he, ha⟩
  · obtain ⟨b, rfl⟩ := List.length_eq_one_iff.mp hl
    rw [bind_of_ok h]
    exact Or.inl ⟨b, s', rfl, htakes⟩
  · rw [bind_of_error h]
    exact Or.inr ⟨e, s', rfl, he, ha⟩

/-- The state with its place remembered. -/
def marked (s : ScanState σ) : ScanState σ := { s with source := Source.mark s.source }

/-- The state without the source's books about the mark. -/
def unmarked (s : ScanState σ) : ScanState σ :=
  { s with source := LawfulSource.unmarked s.source }

@[simp] theorem unmarked_marked (s : ScanState σ) : unmarked (marked s) = unmarked s := by
  rw [unmarked, marked, LawfulSource.unmarked_mark]
  rfl

/-- A marker that was looked at and put back is read again. -/
theorem look {s s' : ScanState σ} {w : Bytes} (h : bytes markerWidth (marked s) = .ok w s') :
    ∃ s'', rewind s' = .ok () s'' ∧ bytes markerWidth s'' = .ok w s' := by
  rw [bytes, onSource_eq] at h
  cases ht : Source.take markerWidth (marked s).source with
  | ok w₁ source =>
    simp only [ht, EStateM.Result.ok.injEq] at h
    obtain ⟨rfl, rfl⟩ := h
    obtain ⟨back, hrewind, hagain⟩ := LawfulSource.look ht
    refine ⟨{ s with source := back }, ?_, ?_⟩
    · rw [rewind, onSource_eq]
      simp only [hrewind]
      rfl
    · rw [bytes, onSource_eq]
      simp only [hagain]
      rfl
  | error e source => simp [ht] at h

/-- Bytes do not see the books about the mark. -/
theorem sees_bytes (n : Nat) : Sees unmarked (bytes n : Scan σ Bytes) := by
  intro s t hst
  have hsource : LawfulSource.unmarked s.source = LawfulSource.unmarked t.source :=
    (ScanState.mk.inj hst).1
  have hasked : s.asked = t.asked := (ScanState.mk.inj hst).2
  have htake := LawfulSource.sees n s.source t.source hsource
  simp only [bytes, onSource_eq]
  cases hs : Source.take n s.source with
  | ok w m =>
    cases ht : Source.take n t.source with
    | ok v m' =>
      simp only [hs, ht, within, EStateM.Result.ok.injEq] at htake
      simp only [within, unmarked, htake, hasked]
    | error e m' => simp [hs, ht, within] at htake
  | error e m =>
    cases ht : Source.take n t.source with
    | ok v m' => simp [hs, ht, within] at htake
    | error e' m' =>
      simp only [hs, ht, within, EStateM.Result.error.injEq] at htake
      simp only [within, unmarked, htake, hasked]

theorem keeps_bytes (n : Nat) : Keeps (fun s : ScanState σ => s.asked) (bytes n) := by
  intro s
  rcases bytes_outcome n s with ⟨w, s', h, -, htakes⟩ | ⟨e, s', h, -, ha⟩
  · rw [h]
    exact htakes.2
  · rw [h]
    exact ha

theorem fails_bytes (n : Nat) : Fails Failure.Undelivered (bytes n : Scan σ Bytes) := by
  intro s s' e he
  rcases bytes_outcome n s with ⟨w, s₁, h, -⟩ | ⟨e₁, s₁, h, hundelivered, -⟩
  · simp [h] at he
  · rw [h] at he
    obtain ⟨rfl, -⟩ := EStateM.Result.error.inj he
    exact hundelivered

end Scan

/-! ## 2. Plain headers -/

namespace PlainHeader

/-- Reading a plain header does not see the books about the mark. -/
theorem sees_decode : Sees Scan.unmarked (decode : Scan σ PlainHeader) :=
  decode_induction Sees.bind Sees.pure Scan.sees_bytes fun _ => .throw _

/-- Reading a plain header asks nobody. -/
theorem keeps_decode : Keeps (fun s : ScanState σ => s.asked) (decode : Scan σ PlainHeader) :=
  decode_induction Keeps.bind Keeps.pure Scan.keeps_bytes fun _ => .throw _

/-- A plain header that is not read was not delivered, or is at fault. -/
theorem fails_decode :
    Fails (fun e => e.Undelivered ∨ ∃ fault, e = .encoding fault ∧ Fault fault)
      (decode : Scan σ PlainHeader) :=
  decode_induction Fails.bind Fails.pure
    (fun n => (Scan.fails_bytes n).mono fun _ => Or.inl)
    fun hfault => .throw (Or.inr ⟨_, rfl, hfault⟩)

end PlainHeader

/-! ## 3. Behind the marker -/

/-- What can be wrong with the name of an authenticated header. -/
inductive Failure.OfName : Failure → Prop where
  | tooLong : OfName (.encoding (.keyNameTooLong maxKeyName))
  | missing : OfName (.encoding .missingKeyName)
  | unreadable : OfName (.encoding .invalidKeyName)

/-- **The key name at the beginning of some bytes**: it ends at the first byte that can end it. -/
structure Named (name : String) (bytes : Bytes) : Prop where
  front : Bytes.ofText name ++ [keyNameEnd] <+: bytes
  first : keyNameEnd ∉ Bytes.ofText name
  nonempty : name ≠ ""
  short : name.utf8ByteSize ≤ maxKeyName

namespace AuthenticatedHeader

/-- The bytes of the name end in time, or not. -/
theorem nameBytes_outcome (room : Nat) (s : ScanState σ) :
    (∃ raw s', nameBytes room s = .ok raw s' ∧ Scan.Takes s (raw ++ [keyNameEnd]) s' ∧
        raw.length ≤ room ∧ keyNameEnd ∉ raw) ∨
      ∃ e s', nameBytes room s = .error e s' ∧ (e.Undelivered ∨ e.OfName) ∧ s'.asked = s.asked := by
  induction room generalizing s with
  | zero =>
    rw [nameBytes_zero]
    rcases Scan.byte_outcome s with ⟨b, s₁, h₁, htakes⟩ | ⟨e, s₁, h₁, he, ha⟩
    · rw [bind_of_ok h₁]
      split
      · rename_i hb
        refine Or.inl ⟨[], s₁, rfl, ?_, Nat.le_refl _, by simp⟩
        rwa [List.nil_append, ← hb]
      · exact Or.inr ⟨_, s₁, rfl, Or.inr .tooLong, htakes.2⟩
    · rw [bind_of_error h₁]
      exact Or.inr ⟨e, s₁, rfl, Or.inl he, ha⟩
  | succ room ih =>
    rw [nameBytes_succ]
    rcases Scan.byte_outcome s with ⟨b, s₁, h₁, htakes⟩ | ⟨e, s₁, h₁, he, ha⟩
    · rw [bind_of_ok h₁]
      split
      · rename_i hb
        refine Or.inl ⟨[], s₁, rfl, ?_, Nat.zero_le _, by simp⟩
        rwa [List.nil_append, ← hb]
      · rename_i hb
        rcases ih s₁ with ⟨raw, s₂, h₂, hraw, hl, hend⟩ | ⟨e, s₂, h₂, he, ha⟩
        · rw [bind_of_ok h₂]
          refine Or.inl ⟨b :: raw, s₂, rfl, htakes.trans hraw, Nat.succ_le_succ hl, ?_⟩
          rw [List.mem_cons, not_or]
          exact ⟨Ne.symm hb, hend⟩
        · rw [bind_of_error h₂]
          exact Or.inr ⟨e, s₂, rfl, he, ha.trans htakes.2⟩
    · rw [bind_of_error h₁]
      exact Or.inr ⟨e, s₁, rfl, Or.inl he, ha⟩

/-- The name is read, or it is at fault. -/
theorem decodeKeyName_outcome (s : ScanState σ) :
    (∃ name s', decodeKeyName s = .ok (Bytes.ofText name, name) s' ∧
        Scan.Takes s (Bytes.ofText name ++ [keyNameEnd]) s' ∧
        Named name (LawfulSource.unread s.source)) ∨
      ∃ e s', decodeKeyName s = .error e s' ∧ (e.Undelivered ∨ e.OfName) ∧ s'.asked = s.asked := by
  rw [decodeKeyName_eq]
  rcases nameBytes_outcome maxKeyName s with ⟨raw, s', h, htakes, hl, hend⟩ | ⟨e, s', h, he, ha⟩
  · rw [bind_of_ok h]
    split
    · exact Or.inr ⟨_, s', rfl, Or.inr .missing, htakes.2⟩
    · rename_i hne
      cases hname : Bytes.toText? raw with
      | none => exact Or.inr ⟨_, s', rfl, Or.inr .unreadable, htakes.2⟩
      | some name =>
        obtain rfl := Bytes.ofText_of_toText? hname
        refine Or.inl ⟨name, s', rfl, htakes, ⟨?_, hend, ?_, ?_⟩⟩
        · exact ⟨_, htakes.1.symm⟩
        · rintro rfl
          exact hne rfl
        · rwa [Bytes.length_ofText] at hl
  · rw [bind_of_error h]
    exact Or.inr ⟨e, s', rfl, he, ha⟩

/-- Behind the name nobody is asked. -/
theorem keeps_afterName (r : Resolver) (name : Bytes × String) (key : Key) :
    Keeps (fun s : ScanState σ => s.asked) (afterName r name key) := by
  have hbyte : Keeps (fun s : ScanState σ => s.asked) Scan.byte := by
    rw [Scan.byte_eq]
    exact (Scan.keeps_bytes 1).bind fun _ => .pure _
  refine hbyte.bind fun length => ?_
  refine (Scan.keeps_bytes _).bind fun nonce => (Scan.keeps_bytes _).bind fun carried => ?_
  split
  · exact .pure _
  · exact .throw _

/-- Behind the name, bytes can be missing and the tag can be wrong. -/
theorem fails_afterName (r : Resolver) (name : Bytes × String) (key : Key) :
    Fails (fun e => e.Undelivered ∨ e = .authentication .headerTag)
      (afterName r name key : Scan σ AuthenticatedHeader) := by
  have hbytes : ∀ n, Fails (fun e => e.Undelivered ∨ e = .authentication .headerTag)
      (Scan.bytes n : Scan σ Bytes) := fun n => (Scan.fails_bytes n).mono fun _ => Or.inl
  have hbyte : Fails (fun e => e.Undelivered ∨ e = .authentication .headerTag)
      (Scan.byte : Scan σ UInt8) := by
    rw [Scan.byte_eq]
    exact (hbytes 1).bind fun _ => .pure _
  refine hbyte.bind fun length => ?_
  refine (hbytes _).bind fun nonce => (hbytes _).bind fun carried => ?_
  split
  · exact .pure _
  · exact .throw (Or.inr rfl)

end AuthenticatedHeader

/-! ## 4. The dispatch -/

/-- **The first four bytes are the marker.** -/
def Marked (bytes : Bytes) : Prop := Bytes.ofInt32 authenticatedMarker <+: bytes

/-- The number in place of the marker is the marker exactly where the bytes are. -/
theorem toInt32_eq_marker {w rest : Bytes} (hw : w.length = markerWidth) :
    Bytes.toInt32 w = authenticatedMarker ↔ Marked (w ++ rest) := by
  constructor
  · intro h
    rw [Marked, ← h, Bytes.ofInt32_toInt32 hw]
    exact List.prefix_append w rest
  · rintro ⟨more, h⟩
    obtain ⟨rfl, -⟩ := List.append_inj h hw.symm
    decide

/-- **What reading a header can fail with.** -/
inductive Failure.OfHeader : Failure → Prop where
  | undelivered {e : Failure} (h : e.Undelivered) : OfHeader e
  | plain {fault : HeaderError} (h : PlainHeader.Fault fault) : OfHeader (.encoding fault)
  | name {e : Failure} (h : e.OfName) : OfHeader e
  | unknown (name : String) : OfHeader (.key (.notFound name))
  | tag : OfHeader (.authentication .headerTag)

namespace Header

/-- **What reading can come to behind the marker**, where the bytes are `behind` and `asked` are the
names that were asked for before. -/
inductive Judged (r : Resolver) (behind : Bytes) (asked : List String) :
    EStateM.Result Failure (ScanState σ) Header → Prop where
  /-- There is no name, and nobody was asked. -/
  | unnamed {e : Failure} {s : ScanState σ} (fault : e.Undelivered ∨ e.OfName)
      (quiet : s.asked = asked) : Judged r behind asked (.error e s)
  /-- The name has no key. -/
  | unknown {name : String} {s : ScanState σ} (named : Named name behind)
      (once : s.asked = asked ++ [name]) (answer : r.answer asked name = none) :
      Judged r behind asked (.error (.key (.notFound name)) s)
  /-- The name has a key, and what stands behind the name is not there or not right. -/
  | rejected {name : String} {key : Key} {e : Failure} {s : ScanState σ}
      (named : Named name behind) (once : s.asked = asked ++ [name])
      (answer : r.answer asked name = some key)
      (fault : e.Undelivered ∨ e = .authentication .headerTag) : Judged r behind asked (.error e s)
  | accepted {name : String} {key : Key} {h : AuthenticatedHeader} {s : ScanState σ}
      (named : Named name behind) (once : s.asked = asked ++ [name])
      (answer : r.answer asked name = some key) (keyName : h.keyName = name) :
      Judged r behind asked (.ok (.authenticated h) s)

/-- What stands behind the marker, read as a header. -/
def decodeBehind (r : Resolver) : Scan σ Header :=
  AuthenticatedHeader.afterMarker r >>= fun h => pure (.authenticated h)

/-- **Behind the marker there is an authenticated header or a fault.** -/
theorem judged_decodeBehind (r : Resolver) (s : ScanState σ) :
    Judged r (LawfulSource.unread s.source) s.asked (decodeBehind r s) := by
  rw [decodeBehind, AuthenticatedHeader.afterMarker_eq, bind_assoc]
  rcases AuthenticatedHeader.decodeKeyName_outcome s with
    ⟨name, s₁, h₁, ⟨-, hquiet⟩, hnamed⟩ | ⟨e, s₁, h₁, hfault, hquiet⟩
  · rw [bind_of_ok h₁, bind_assoc]
    have hask := Scan.asking_key r name s₁
    have honce : (Scan.note name s₁).asked = s.asked ++ [name] := by rw [Scan.note, hquiet]
    rw [hquiet] at hask
    cases hanswer : r.answer s.asked name with
    | none =>
      simp only [hanswer] at hask
      rw [bind_of_error hask]
      exact .unknown hnamed honce hanswer
    | some key =>
      simp only [hanswer] at hask
      rw [bind_of_ok hask]
      -- the question is behind us: from here on the names asked for stay as they are
      have hkept := AuthenticatedHeader.keeps_afterName r (Bytes.ofText name, name) key
        (Scan.note name s₁)
      cases htail : AuthenticatedHeader.afterName r (Bytes.ofText name, name) key
          (Scan.note name s₁) with
      | ok h s₂ =>
        rw [htail] at hkept
        rw [bind_of_ok htail]
        exact .accepted hnamed (hkept.trans honce) hanswer
          (AuthenticatedHeader.keyName_of_afterName htail)
      | error e s₂ =>
        rw [htail] at hkept
        rw [bind_of_error htail]
        exact .rejected hnamed (hkept.trans honce) hanswer
          (AuthenticatedHeader.fails_afterName _ _ _ _ _ _ htail)
  · rw [bind_of_error h₁]
    exact .unnamed hfault hquiet

/-- A plain header, read without a look at the marker. -/
def decodePlain : Scan σ Header := PlainHeader.decode >>= fun h => pure (.plain h)

theorem sees_decodePlain : Sees Scan.unmarked (decodePlain : Scan σ Header) :=
  PlainHeader.sees_decode.bind fun _ => .pure _

theorem keeps_decodePlain : Keeps (fun s : ScanState σ => s.asked) (decodePlain : Scan σ Header) :=
  PlainHeader.keeps_decode.bind fun _ => .pure _

theorem fails_decodePlain : Fails Failure.OfHeader (decodePlain : Scan σ Header) := by
  refine (PlainHeader.fails_decode.mono ?_).bind fun _ => .pure _
  rintro e (hundelivered | ⟨fault, rfl, hfault⟩)
  · exact .undelivered hundelivered
  · exact .plain hfault

/-- A header behind the number in place of the marker: in the plain layout it is the total
length. -/
def decodeAfter (r : Resolver) (number : Int) : Scan σ Header :=
  if number ≠ authenticatedMarker then PlainHeader.afterLength number >>= fun h => pure (.plain h)
  else decodeBehind r

/-- **The first four bytes are looked at twice and read once**: where they are not the marker, they
are put back, and the plain layout reads them again to the same number and goes on from the same
state. -/
theorem decode_once (r : Resolver) (s : ScanState σ) :
    decode r s = (Scan.int32 >>= decodeAfter r) (Scan.marked s) := by
  have hmark : Scan.mark s = .ok () (Scan.marked s) := rfl
  rw [decode_eq, bind_of_ok hmark]
  rcases Scan.bytes_outcome markerWidth (Scan.marked s) with ⟨w, s₁, h₁, -⟩ | ⟨e, s₁, h₁, -⟩
  · rw [bind_of_ok (Scan.int32_of_bytes h₁), bind_of_ok (Scan.int32_of_bytes h₁), decodeAfter]
    split
    · obtain ⟨back, hrewind, hagain⟩ := Scan.look h₁
      rw [bind_of_ok hrewind, PlainHeader.decode_eq_afterLength, bind_assoc,
        bind_of_ok (Scan.int32_of_bytes hagain)]
    · rfl
  · rw [bind_of_error (Scan.int32_of_undelivered h₁), bind_of_error (Scan.int32_of_undelivered h₁)]

/-- **Without the marker, looking for it leaves no trace**: what follows is reading a plain header
from the mark. -/
theorem decode_of_foreign {r : Resolver} {s : ScanState σ}
    (hm : ¬Marked (LawfulSource.unread s.source)) :
    decode r s = decodePlain (Scan.marked s) := by
  rw [decode_once, decodePlain, PlainHeader.decode_eq_afterLength, bind_assoc]
  rcases Scan.bytes_outcome markerWidth (Scan.marked s) with
    ⟨w, s₁, h₁, hw, ⟨hunread, -⟩⟩ | ⟨e, s₁, h₁, -, -⟩
  · have hforeign : Bytes.toInt32 w ≠ authenticatedMarker := by
      intro hmarker
      have hmarked : Marked (w ++ LawfulSource.unread s₁.source) :=
        (toInt32_eq_marker hw).mp hmarker
      rw [← hunread, Scan.marked, LawfulSource.unread_mark] at hmarked
      exact hm hmarked
    rw [bind_of_ok (Scan.int32_of_bytes h₁), bind_of_ok (Scan.int32_of_bytes h₁), decodeAfter,
      if_pos hforeign]
  · rw [bind_of_error (Scan.int32_of_undelivered h₁), bind_of_error (Scan.int32_of_undelivered h₁)]

/-- **With the marker, what follows is reading what stands behind it**, if the marker is
delivered. -/
theorem decode_of_marked (r : Resolver) {s : ScanState σ}
    (hm : Marked (LawfulSource.unread s.source)) :
    (∃ w s₁, Scan.bytes markerWidth (Scan.marked s) = .ok w s₁ ∧
        (LawfulSource.unread s.source).drop markerWidth = LawfulSource.unread s₁.source ∧
        s₁.asked = s.asked ∧ decode r s = decodeBehind r s₁) ∨
      ∃ e s₁, decode r s = .error e s₁ ∧ e.Undelivered ∧ s₁.asked = s.asked := by
  rw [decode_once]
  rcases Scan.bytes_outcome markerWidth (Scan.marked s) with
    ⟨w, s₁, h₁, hw, hunread, hasked⟩ | ⟨e, s₁, h₁, hundelivered, hasked⟩
  · rw [Scan.marked, LawfulSource.unread_mark] at hunread
    have hmarker : Bytes.toInt32 w = authenticatedMarker :=
      (toInt32_eq_marker hw).mpr (hunread ▸ hm)
    refine Or.inl ⟨w, s₁, h₁, ?_, hasked, ?_⟩
    · rw [hunread, ← hw, List.drop_left]
    · rw [bind_of_ok (Scan.int32_of_bytes h₁), decodeAfter, hmarker, if_neg (not_not.mpr rfl)]
  · rw [bind_of_error (Scan.int32_of_undelivered h₁)]
    exact Or.inr ⟨e, s₁, rfl, hundelivered, hasked⟩

/-- **What the first four bytes decide**, of a source in a given state. -/
structure Dispatched (r : Resolver) (s : ScanState σ) : Prop where
  /-- Behind the marker there is an authenticated header, or a fault that is not one of a plain
  header; the resolver is asked at most once, for the name in the bytes. -/
  marked : Marked (LawfulSource.unread s.source) →
    Judged r ((LawfulSource.unread s.source).drop markerWidth) s.asked (decode r s)
  /-- Anything else is read as a plain header, to the same result and the same place. -/
  foreign : ¬Marked (LawfulSource.unread s.source) →
    within Scan.unmarked (decode r s) = within Scan.unmarked (decodePlain s)
  /-- Then nobody is asked. -/
  quiet : ¬Marked (LawfulSource.unread s.source) → (leftBy (decode r s)).asked = s.asked
  /-- So the resolver cannot matter. -/
  independent : ¬Marked (LawfulSource.unread s.source) → ∀ r', decode r' s = decode r s
  /-- Nothing is said about a marker that was not expected, or a way back that is too long. -/
  silent : ∀ e s', decode r s = .error e s' →
    (∀ found, e ≠ .encoding (.versionMismatch found)) ∧
      ∀ consumed window, e ≠ .encoding (.rewindUnsupported consumed window)

/-- Behind the marker, what is judged are the bytes behind it. -/
theorem judged_decode {r : Resolver} {s : ScanState σ}
    (hm : Marked (LawfulSource.unread s.source)) :
    Judged r ((LawfulSource.unread s.source).drop markerWidth) s.asked (decode r s) := by
  rcases decode_of_marked r hm with ⟨w, s₁, -, hbehind, hasked, hd⟩ | ⟨e, s₁, hd, he, hasked⟩
  · rw [hd, hbehind, ← hasked]
    exact judged_decodeBehind r s₁
  · rw [hd]
    exact .unnamed (Or.inl he) hasked

/-- **What reading a header can fail with**, in either layout. -/
theorem fails_decode (r : Resolver) : Fails Failure.OfHeader (decode r : Scan σ Header) := by
  intro s s' e he
  by_cases hm : Marked (LawfulSource.unread s.source)
  · have hjudged := judged_decode (r := r) hm
    rw [he] at hjudged
    cases hjudged with
    | unnamed fault => exact fault.elim .undelivered .name
    | unknown => exact .unknown _
    | rejected _ _ _ fault => exact fault.elim .undelivered fun htag => htag ▸ .tag
  · rw [decode_of_foreign hm] at he
    exact fails_decodePlain _ _ _ he

/-- **The laws of a source are enough for the first four bytes to decide.** -/
theorem dispatched (r : Resolver) (s : ScanState σ) : Dispatched r s where
  marked := judged_decode
  foreign hm := by
    rw [decode_of_foreign hm]
    exact sees_decodePlain _ _ (Scan.unmarked_marked s)
  quiet hm := by
    rw [decode_of_foreign hm]
    exact keeps_decodePlain (Scan.marked s)
  independent hm r' := by rw [decode_of_foreign hm, decode_of_foreign hm]
  silent e s' he := by
    cases fails_decode r s s' e he with
    | undelivered h => cases h <;> simp [Failure.truncated]
    | plain h => cases h <;> simp
    | name h => cases h <;> simp
    | unknown name => simp
    | tag => simp

end Header

/-- **The first four bytes decide alone which layout is read**, from memory and from a stream, in
every state of either and for every rule of the reader and every resolver. -/
theorem version_decided_by_marker (r : Resolver) :
    (∀ s : ScanState MemorySource, Header.Dispatched r s) ∧
      ∀ s : ScanState StreamSource, Header.Dispatched r s :=
  ⟨Header.dispatched r, Header.dispatched r⟩

end Envelope

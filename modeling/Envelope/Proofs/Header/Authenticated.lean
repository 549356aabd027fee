/-
# Authenticated headers have one form

The key name of an authenticated header is not counted but ended, so its form is canonical for a
different reason than in a plain header: no byte of the name can be the one that ends it, and the
search for the end gives up after the longest name.  The nonce has its length in one byte.  The tag
is compared with the code of what was read, so under the key that was found there is only one tag,
and the whole header is the encoding of what it says (`afterMarker_eq_ok`).

The marker is read before anything else and decides alone whether this layout is read at all.  The
proofs therefore treat what stands behind it (`afterMarker`) as a reading of its own.
-/
import Envelope.Proofs.Bytes
import Envelope.Proofs.Scan.Fields
import Envelope.Header.Authenticated

namespace Envelope.AuthenticatedHeader

variable {σ : Type} [Source σ]

/-! ## 1. The reading, step by step -/

theorem nameBytes_zero :
    (nameBytes 0 : Scan σ Bytes) =
      Scan.byte >>= fun b =>
        if b = keyNameEnd then pure [] else Scan.refuse (.keyNameTooLong maxKeyName) := rfl

theorem nameBytes_succ (room : Nat) :
    (nameBytes (room + 1) : Scan σ Bytes) =
      Scan.byte >>= fun b =>
        if b = keyNameEnd then pure [] else nameBytes room >>= fun more => pure (b :: more) := rfl

theorem decodeKeyName_eq :
    (decodeKeyName : Scan σ (Bytes × String)) =
      nameBytes maxKeyName >>= fun raw =>
        if raw = [] then Scan.refuse .missingKeyName
        else
          match Bytes.toText? raw with
          | some name => pure (raw, name)
          | none => Scan.refuse .invalidKeyName := rfl

/-- **What stands behind the marker.** -/
def afterMarker (resolver : Resolver) : Scan σ AuthenticatedHeader :=
  decodeKeyName >>= fun name =>
    Scan.asking (resolver.key name.2) >>= fun key =>
      Scan.byte >>= fun length =>
        Scan.bytes length.toNat >>= fun nonce =>
          Scan.bytes headerTagWidth >>= fun carried =>
            if Hmac.code key.bytes (Bytes.ofInt32 authenticatedMarker ++ name.1 ++
                keyNameEnd :: length :: nonce) = carried then
              pure { nonce, keyName := name.2, resolver := some resolver }
            else throw (.authentication .headerTag)

/-- What stands behind the key name, once it has a key. -/
def afterName (r : Resolver) (name : Bytes × String) (key : Key) : Scan σ AuthenticatedHeader :=
  Scan.byte >>= fun length =>
    Scan.bytes length.toNat >>= fun nonce =>
      Scan.bytes headerTagWidth >>= fun carried =>
        if Hmac.code key.bytes (Bytes.ofInt32 authenticatedMarker ++ name.1 ++
            keyNameEnd :: length :: nonce) = carried then
          pure { nonce, keyName := name.2, resolver := some r }
        else throw (.authentication .headerTag)

theorem afterMarker_eq (r : Resolver) :
    (afterMarker r : Scan σ AuthenticatedHeader) =
      decodeKeyName >>= fun name => Scan.asking (r.key name.2) >>= afterName r name := rfl

/-- **What composes along chains and holds of every field, every question and every failure holds of
reading what stands behind the marker.** -/
theorem afterMarker_induction {P : ∀ {α : Type}, Scan σ α → Prop}
    (hbind : ∀ {α β : Type} {x : Scan σ α} {f : α → Scan σ β}, P x → (∀ a, P (f a)) → P (x >>= f))
    (hpure : ∀ {α : Type} (a : α), P (pure a : Scan σ α)) (hbytes : ∀ n, P (Scan.bytes n))
    (hask : ∀ (r : Resolver) (name : String), P (Scan.asking (r.key name) : Scan σ Key))
    (hthrow : ∀ {α : Type} (e : Failure), P (throw e : Scan σ α)) (r : Resolver) :
    P (afterMarker r : Scan σ AuthenticatedHeader) := by
  have hbyte : P (Scan.byte : Scan σ UInt8) := (Scan.field_induction hbind hpure hbytes).1
  have hname : ∀ room, P (nameBytes room : Scan σ Bytes) := by
    intro room
    induction room with
    | zero =>
      rw [nameBytes_zero]
      refine hbind hbyte fun b => ?_
      split
      · exact hpure _
      · exact hthrow _
    | succ room ih =>
      rw [nameBytes_succ]
      refine hbind hbyte fun b => ?_
      split
      · exact hpure _
      · exact hbind ih fun more => hpure _
  rw [afterMarker_eq, decodeKeyName_eq]
  refine hbind (hbind (hname _) fun raw => ?_) fun name => hbind (hask r name.2) fun key => ?_
  · split
    · exact hthrow _
    · cases Bytes.toText? raw with
      | some name => exact hpure _
      | none => exact hthrow _
  · refine hbind hbyte fun length => hbind (hbytes _) fun nonce => ?_
    refine hbind (hbytes _) fun carried => ?_
    split
    · exact hpure _
    · exact hthrow _

/-- The header says the name that was read. -/
theorem keyName_of_afterName {r : Resolver} {name : Bytes × String} {key : Key}
    {s s' : ScanState σ} {h : AuthenticatedHeader} (ha : afterName r name key s = .ok h s') :
    h.keyName = name.2 := by
  obtain ⟨length, s₁, -, ha⟩ := bind_eq_ok.mp ha
  obtain ⟨nonce, s₂, -, ha⟩ := bind_eq_ok.mp ha
  obtain ⟨carried, s₃, -, ha⟩ := bind_eq_ok.mp ha
  split at ha
  · obtain ⟨rfl, -⟩ := EStateM.Result.ok.inj ha
    rfl
  · simp at ha

/-- **The marker decides alone.** -/
theorem probe_eq (resolver : Resolver) :
    (probe resolver : Scan σ Probe) =
      Scan.int32 >>= fun marker =>
        if marker ≠ authenticatedMarker then pure (.foreign marker)
        else afterMarker resolver >>= fun h => pure (.parsed h) := by
  unfold probe
  refine bind_congr fun marker => ?_
  by_cases hm : marker = authenticatedMarker
  · subst hm
    simp only [ne_eq, not_true_eq_false, if_false, afterMarker, bind_assoc]
    refine bind_congr fun name => bind_congr fun key => bind_congr fun length =>
      bind_congr fun nonce => bind_congr fun carried => ?_
    unfold checkTag
    split_ifs <;> rfl
  · rw [if_pos hm, if_pos hm]

/-! ## 2. What was read can be written -/

/-- The name ends at the first byte that can end it, and there is one in time. -/
theorem nameBytes_eq_ok {room : Nat} {s s' : ScanState MemorySource} {raw : Bytes}
    (h : nameBytes room s = .ok raw s') :
    Scan.Reads s (raw ++ [keyNameEnd]) s' ∧ raw.length ≤ room ∧ keyNameEnd ∉ raw ∧
      s'.asked = s.asked := by
  induction room generalizing s raw with
  | zero =>
    rw [nameBytes_zero, bind_eq_ok] at h
    obtain ⟨b, s₁, h₁, h⟩ := h
    obtain ⟨hr, ha⟩ := Scan.byte_eq_ok h₁
    split at h
    · rename_i hb
      obtain ⟨rfl, rfl⟩ := EStateM.Result.ok.inj h
      exact ⟨by rwa [List.nil_append, ← hb], Nat.le_refl _, by simp, ha⟩
    · simp at h
  | succ room ih =>
    rw [nameBytes_succ, bind_eq_ok] at h
    obtain ⟨b, s₁, h₁, h⟩ := h
    obtain ⟨hr, ha⟩ := Scan.byte_eq_ok h₁
    split at h
    · rename_i hb
      obtain ⟨rfl, rfl⟩ := EStateM.Result.ok.inj h
      exact ⟨by rwa [List.nil_append, ← hb], Nat.zero_le _, by simp, ha⟩
    · rename_i hb
      rw [bind_eq_ok] at h
      obtain ⟨more, s₂, h₂, h⟩ := h
      obtain ⟨rfl, rfl⟩ := EStateM.Result.ok.inj h
      obtain ⟨hr₂, hlen, hmem, ha₂⟩ := ih h₂
      refine ⟨hr.trans hr₂, by rw [List.length_cons]; omega, ?_, ha₂.trans ha⟩
      rw [List.mem_cons, not_or]
      exact ⟨Ne.symm hb, hmem⟩

/-- The key name that was read, in its only form, is one that a header can carry. -/
theorem decodeKeyName_eq_ok {s s' : ScanState MemorySource} {raw : Bytes} {name : String}
    (h : decodeKeyName s = .ok (raw, name) s') :
    raw = Bytes.ofText name ∧ Scan.Reads s (raw ++ [keyNameEnd]) s' ∧
      checkKeyName name = .ok () ∧ s'.asked = s.asked := by
  rw [decodeKeyName_eq, bind_eq_ok] at h
  obtain ⟨raw₁, s₁, h₁, h⟩ := h
  obtain ⟨hr, hlen, hmem, ha⟩ := nameBytes_eq_ok h₁
  split at h
  · simp at h
  · rename_i hne
    cases hname : Bytes.toText? raw₁ with
    | none => simp [hname] at h
    | some name₁ =>
      simp only [hname] at h
      obtain ⟨⟨⟩, rfl⟩ := EStateM.Result.ok.inj h
      have htext := Bytes.ofText_of_toText? hname
      have hsize : name.utf8ByteSize = raw.length := by rw [← Bytes.length_ofText, htext]
      have hpos : raw.length ≠ 0 := by simpa using hne
      refine ⟨htext.symm, hr, ?_, ha⟩
      rw [checkKeyName, hsize, htext, if_neg hpos, if_neg (by omega), if_neg hmem]

/-- What the constructor checks. -/
theorem new_eq_ok {nonce : Bytes} {keyName : String} {h : AuthenticatedHeader} :
    new nonce keyName = .ok h ↔
      h = { nonce, keyName, resolver := none } ∧ checkKeyName keyName = .ok () ∧
        nonce.length ≤ maxNonce := by
  unfold new
  cases checkKeyName keyName with
  | error e => simp [bind, Except.bind]
  | ok _ =>
    by_cases hn : maxNonce < nonce.length
    · simp [bind, Except.bind, hn, throw, throwThe, MonadExceptOf.throw]
    · simp [bind, Except.bind, hn, pure, Except.pure, eq_comm]
      omega

/-- What the check of a key name comes to. -/
theorem checkKeyName_eq_ok {name : String} :
    checkKeyName name = .ok () ↔
      name.utf8ByteSize ≠ 0 ∧ name.utf8ByteSize ≤ maxKeyName ∧ keyNameEnd ∉ Bytes.ofText name := by
  unfold checkKeyName
  constructor
  · intro h
    split at h
    · simp at h
    · split at h
      · simp at h
      · split at h
        · simp at h
        · exact ⟨by assumption, by omega, by assumption⟩
  · rintro ⟨hz, hl, hm⟩
    rw [if_neg hz, if_neg (by omega), if_neg hm]

/-- **What was read behind the marker is the encoding of the header, under the key that was found**,
and the header is what its constructor builds from its parts. -/
theorem afterMarker_eq_ok {r : Resolver} {s s' : ScanState MemorySource} {h : AuthenticatedHeader}
    (hd : afterMarker r s = .ok h s') :
    ∃ key w, r.answer s.asked h.keyName = some key ∧ s'.asked = s.asked ++ [h.keyName] ∧
      h.encodeWith key = Bytes.ofInt32 authenticatedMarker ++ w ∧ Scan.Reads s w s' ∧
      new h.nonce h.keyName = .ok { h with resolver := none } ∧ h.resolver = some r := by
  rw [afterMarker, bind_eq_ok] at hd
  obtain ⟨⟨raw, name⟩, s₁, h₁, hd⟩ := hd
  obtain ⟨rfl, hr₁, hcheck, ha₁⟩ := decodeKeyName_eq_ok h₁
  rw [bind_eq_ok] at hd
  obtain ⟨key, s₂, h₂, hd⟩ := hd
  obtain ⟨hkey, rfl⟩ := Scan.asking_key_eq_ok h₂
  rw [bind_eq_ok] at hd
  obtain ⟨length, s₃, h₃, hd⟩ := hd
  obtain ⟨hr₃, ha₃⟩ := Scan.byte_eq_ok h₃
  rw [bind_eq_ok] at hd
  obtain ⟨nonce, s₄, h₄, hd⟩ := hd
  obtain ⟨hnonce, hr₄, ha₄⟩ := Scan.bytes_eq_ok h₄
  rw [bind_eq_ok] at hd
  obtain ⟨carried, s₅, h₅, hd⟩ := hd
  obtain ⟨-, hr₅, ha₅⟩ := Scan.bytes_eq_ok h₅
  split at hd
  · rename_i htag
    obtain ⟨rfl, rfl⟩ := EStateM.Result.ok.inj hd
    have hlength : UInt8.ofNat nonce.length = length := by rw [hnonce, UInt8.ofNat_toNat]
    have hshort : nonce.length ≤ maxNonce := by
      have := length.toNat_lt
      have hmax : maxNonce = 255 := rfl
      omega
    -- the question to the resolver takes no byte
    have hr₁' : Scan.Reads s (Bytes.ofText name ++ [keyNameEnd]) (Scan.note name s₁) := hr₁
    refine ⟨key, _, by rw [← ha₁]; exact hkey, ?_, ?_, ((hr₁'.trans hr₃).trans hr₄).trans hr₅,
      new_eq_ok.mpr ⟨rfl, hcheck, hshort⟩, rfl⟩
    · rw [ha₅, ha₄, ha₃, Scan.note, ha₁]
    · rw [encodeWith, covered]
      simp only [hlength]
      rw [htag]
      simp only [List.append_assoc, List.cons_append, List.nil_append]
  · simp at hd

/-! ## 3. What is written can be read -/

/-- The announced length is the length. -/
@[simp] theorem length_encodeWith (h : AuthenticatedHeader) (key : Key) :
    (h.encodeWith key).length = h.length := by
  rw [encodeWith, covered, length]
  simp only [List.length_append, List.length_cons, Bytes.ofInt32, Bytes.length_ofNatBE,
    Bytes.length_ofText, Hmac.length_code, markerWidth, headerTagWidth]
  omega

/-- The fields behind the marker, one by one, and a tag, which need not be the right one.  Each byte
of the name is a field of its own, since any of them might have been the one that ends it. -/
def fieldsBehind (h : AuthenticatedHeader) (tag : Bytes) : List Bytes :=
  (Bytes.ofText h.keyName).map ([·]) ++ [[keyNameEnd], [UInt8.ofNat h.nonce.length], h.nonce, tag]

/-- The fields of a header that carries some tag. -/
def fieldsWith (h : AuthenticatedHeader) (tag : Bytes) : List Bytes :=
  Bytes.ofInt32 authenticatedMarker :: h.fieldsBehind tag

theorem flatten_fieldsWith (h : AuthenticatedHeader) (tag : Bytes) :
    (h.fieldsWith tag).flatten = h.covered ++ tag := by
  have hname : ((Bytes.ofText h.keyName).map ([·])).flatten = Bytes.ofText h.keyName := by
    rw [← List.flatMap_def, List.flatMap_singleton']
  rw [fieldsWith, fieldsBehind, List.flatten_cons, List.flatten_append, hname, covered]
  simp

theorem expects_nameBytes {raw : Bytes} {room : Nat} (hl : raw.length ≤ room)
    (hm : keyNameEnd ∉ raw) (asked : List String) :
    Scan.Expects (nameBytes room) asked (raw.map ([·]) ++ [[keyNameEnd]]) (.ok raw) asked := by
  induction raw generalizing room with
  | nil =>
    have hend := Scan.Expects.byte asked keyNameEnd
    cases room with
    | zero =>
      rw [nameBytes_zero]
      refine hend.bind ?_
      rw [if_pos rfl]
      exact .pure asked []
    | succ room =>
      rw [nameBytes_succ]
      refine hend.bind ?_
      rw [if_pos rfl]
      exact .pure asked []
  | cons b raw ih =>
    rw [List.mem_cons, not_or] at hm
    obtain ⟨hb, hm⟩ := hm
    cases room with
    | zero => simp at hl
    | succ room =>
      have hl₂ : raw.length ≤ room := by rw [List.length_cons] at hl; omega
      rw [nameBytes_succ]
      refine (Scan.Expects.byte asked b).bind ?_
      rw [if_neg (Ne.symm hb)]
      exact (ih hl₂ hm).map (b :: ·)

theorem expects_decodeKeyName {name : String} (hc : checkKeyName name = .ok ())
    (asked : List String) :
    Scan.Expects decodeKeyName asked ((Bytes.ofText name).map ([·]) ++ [[keyNameEnd]])
      (.ok (Bytes.ofText name, name)) asked := by
  obtain ⟨hz, hl, hm⟩ := checkKeyName_eq_ok.mp hc
  rw [← Bytes.length_ofText] at hz hl
  have hne : Bytes.ofText name ≠ [] := by
    intro h
    rw [h] at hz
    exact hz rfl
  rw [decodeKeyName_eq, ← List.append_nil (List.map _ _ ++ _)]
  refine (expects_nameBytes hl hm asked).bind ?_
  rw [if_neg hne, Bytes.toText?_ofText]
  exact .pure asked _

/-- **What a header comes to that carries some tag**, under the key of its name. -/
def judged (h : AuthenticatedHeader) (r : Resolver) (key : Key) (tag : Bytes) :
    Except Failure AuthenticatedHeader :=
  if Hmac.code key.bytes h.covered = tag then .ok { h with resolver := some r }
  else .error (.authentication .headerTag)

/-- The tag decides what becomes of the fields behind a name that has a key: any nonce of the
announced length is read, and any tag, and then the tag is compared with the code of what was
read. -/
theorem expects_afterName {h : AuthenticatedHeader} (hn : h.nonce.length ≤ maxNonce) (r : Resolver)
    (key : Key) {tag : Bytes} (ht : tag.length = headerTagWidth) (asked : List String) :
    Scan.Expects (afterName r (Bytes.ofText h.keyName, h.keyName) key) asked
      [[UInt8.ofNat h.nonce.length], h.nonce, tag]
      (h.judged r key tag) asked := by
  have hmax : maxNonce = 255 := rfl
  have hlength : (UInt8.ofNat h.nonce.length).toNat = h.nonce.length := by
    rw [UInt8.toNat_ofNat']
    omega
  refine (Scan.Expects.byte asked _).bind ?_
  rw [hlength]
  refine (Scan.Expects.bytes asked h.nonce).bind ?_
  rw [← ht]
  refine (Scan.Expects.bytes asked tag).bind ?_
  rw [judged, covered]
  split
  · exact .pure asked _
  · exact .throw asked _

/-- **A header that its constructor accepts is read back from its fields**, whatever follows, if the
resolver finds the key under which its tag was made; under another tag it is refused.  With less of
the fields the reading says what is missing, before anything is compared. -/
theorem expects_afterMarker {h : AuthenticatedHeader} {r : Resolver} {key : Key}
    (hn : new h.nonce h.keyName = .ok { h with resolver := none }) {asked : List String}
    (hk : r.answer asked h.keyName = some key) {tag : Bytes} (ht : tag.length = headerTagWidth) :
    Scan.Expects (afterMarker r) asked (h.fieldsBehind tag)
      (h.judged r key tag) (asked ++ [h.keyName]) := by
  obtain ⟨-, hcheck, hshort⟩ := new_eq_ok.mp hn
  have hfields : h.fieldsBehind tag = ((Bytes.ofText h.keyName).map ([·]) ++ [[keyNameEnd]]) ++
      ([] ++ [[UInt8.ofNat h.nonce.length], h.nonce, tag]) := by
    rw [fieldsBehind, List.append_assoc]
    rfl
  rw [afterMarker_eq, hfields]
  refine (expects_decodeKeyName hcheck asked).bind ?_
  exact (Scan.Expects.asking hk).bind (expects_afterName hshort r key ht _)

/-! ## 4. Memory and stream -/

theorem parallel_nameBytes (failure : Option TransportError) (room : Nat) :
    Scan.Parallel failure (nameBytes room : Scan MemorySource Bytes) (nameBytes room) := by
  induction room with
  | zero =>
    rw [nameBytes_zero, nameBytes_zero]
    exact .bind .byte fun b => .ite (.pure []) (.refuse (by simp))
  | succ room ih =>
    rw [nameBytes_succ, nameBytes_succ]
    exact .bind .byte fun b => .ite (.pure []) (.bind ih fun more => .pure _)

theorem parallel_decodeKeyName (failure : Option TransportError) :
    Scan.Parallel failure (decodeKeyName : Scan MemorySource (Bytes × String)) decodeKeyName := by
  rw [decodeKeyName_eq, decodeKeyName_eq]
  refine .bind (parallel_nameBytes failure _) fun raw => .ite (.refuse (by simp)) ?_
  cases Bytes.toText? raw with
  | some name => exact .pure _
  | none => exact .refuse (by simp)

/-- **What stands behind the marker is read alike from memory and from a stream.** -/
theorem parallel_afterMarker (failure : Option TransportError) (r : Resolver) :
    Scan.Parallel failure (afterMarker r : Scan MemorySource AuthenticatedHeader)
      (afterMarker r) := by
  refine .bind (parallel_decodeKeyName failure) fun name => ?_
  refine .bind (.asking r name.2) fun key => ?_
  refine .bind .byte fun length => ?_
  refine .bind (.bytes _) fun nonce => ?_
  exact .bind (.bytes _) fun carried => .ite (.pure _) (.throw rfl)

end Envelope.AuthenticatedHeader

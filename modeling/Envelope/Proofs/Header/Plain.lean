/-
# Plain headers have one form

Every length in a plain header is written twice over: the total says what the other lengths must add
up to.  Reading checks all of them against each other, so nothing is left open, and a header that
was read can be written down again and gives the bytes that were read (`decode_eq_ok`).  In the
other direction a header that satisfies the bounds of its constructor is read back from its own
fields, whatever follows them (`expects_decode`).
-/
import Envelope.Proofs.Bytes
import Envelope.Proofs.Scan.Fields
import Envelope.Header.Plain

namespace Envelope.PlainHeader

variable {σ : Type} [Source σ]

/-! ## 1. The two readings, step by step -/

theorem decodeKeyName_eq (total before : Nat) :
    (decodeKeyName total before : Scan σ (Option String)) =
      if total = before then pure none
      else Scan.int32 >>= fun length =>
        if length < 0 ∨ maxKeyName < length ∨ before + keyNameLengthWidth + length ≠ total then
          Scan.refuse (.invalidKeyNameLength length)
        else Scan.bytes length.toNat >>= fun name =>
          match Bytes.toText? name with
          | some name => pure (some name)
          | none => Scan.refuse .invalidKeyName := rfl

theorem decode_eq :
    (decode : Scan σ PlainHeader) =
      Scan.int32 >>= fun total =>
        if total < 0 then Scan.refuse (.negativeLength total)
        else Scan.int32 >>= fun length =>
          if length < 0 ∨ maxNonce < length ∨ total < plainFixedWidth + length then
            Scan.refuse (.invalidNonceLength length)
          else Scan.bytes length.toNat >>= fun nonce =>
            decodeKeyName total.toNat (plainFixedWidth + nonce.length) >>= fun keyName =>
              pure { nonce, keyName } := rfl

/-- **What stands behind the total length.** -/
def afterLength (total : Int) : Scan σ PlainHeader :=
  if total < 0 then Scan.refuse (.negativeLength total)
  else Scan.int32 >>= fun length =>
    if length < 0 ∨ maxNonce < length ∨ total < plainFixedWidth + length then
      Scan.refuse (.invalidNonceLength length)
    else Scan.bytes length.toNat >>= fun nonce =>
      decodeKeyName total.toNat (plainFixedWidth + nonce.length) >>= fun keyName =>
        pure { nonce, keyName }

theorem decode_eq_afterLength :
    (decode : Scan σ PlainHeader) = Scan.int32 >>= afterLength := rfl

/-- What can be wrong with a plain header that is complete. -/
inductive Fault : HeaderError → Prop where
  | negativeLength (raw : Int) : Fault (.negativeLength raw)
  | nonceLength (length : Int) : Fault (.invalidNonceLength length)
  | keyNameLength (length : Int) : Fault (.invalidKeyNameLength length)
  | keyName : Fault .invalidKeyName

section

variable {P : ∀ {α : Type}, Scan σ α → Prop}

/-- **What composes along chains and holds of every field and every refusal holds of reading what
stands behind the total length.** -/
theorem afterLength_induction
    (hbind : ∀ {α β : Type} {x : Scan σ α} {f : α → Scan σ β}, P x → (∀ a, P (f a)) → P (x >>= f))
    (hpure : ∀ {α : Type} (a : α), P (pure a : Scan σ α)) (hbytes : ∀ n, P (Scan.bytes n))
    (hrefuse : ∀ {α : Type} {e : HeaderError}, Fault e → P (Scan.refuse e : Scan σ α))
    (total : Int) : P (afterLength total : Scan σ PlainHeader) := by
  have hint : P (Scan.int32 : Scan σ Int) := (Scan.field_induction hbind hpure hbytes).2
  have hname : ∀ total before, P (decodeKeyName total before : Scan σ (Option String)) := by
    intro total before
    rw [decodeKeyName_eq]
    split
    · exact hpure none
    · refine hbind hint fun length => ?_
      split
      · exact hrefuse (.keyNameLength length)
      · refine hbind (hbytes _) fun name => ?_
        cases Bytes.toText? name with
        | some name => exact hpure _
        | none => exact hrefuse .keyName
  unfold afterLength
  split
  · exact hrefuse (.negativeLength total)
  · refine hbind hint fun length => ?_
    split
    · exact hrefuse (.nonceLength length)
    · exact hbind (hbytes _) fun nonce => hbind (hname _ _) fun keyName => hpure _

/-- **And of reading a plain header.** -/
theorem decode_induction
    (hbind : ∀ {α β : Type} {x : Scan σ α} {f : α → Scan σ β}, P x → (∀ a, P (f a)) → P (x >>= f))
    (hpure : ∀ {α : Type} (a : α), P (pure a : Scan σ α)) (hbytes : ∀ n, P (Scan.bytes n))
    (hrefuse : ∀ {α : Type} {e : HeaderError}, Fault e → P (Scan.refuse e : Scan σ α)) :
    P (decode : Scan σ PlainHeader) :=
  hbind (Scan.field_induction hbind hpure hbytes).2
    (afterLength_induction hbind hpure hbytes hrefuse)

end

/-! ## 2. What was read can be written -/

/-- The key name that was read, in its only form; its fields fill the header to its total length. -/
theorem decodeKeyName_eq_ok {total before : Nat} {s s' : ScanState MemorySource}
    {keyName : Option String} (h : decodeKeyName total before s = .ok keyName s') :
    Scan.Reads s (keyNameFields keyName) s' ∧ total = before + keyNameWidth keyName ∧
      (∀ name, keyName = some name → name.utf8ByteSize ≤ maxKeyName) ∧ s'.asked = s.asked := by
  rw [decodeKeyName_eq] at h
  split at h
  · rename_i htotal
    obtain ⟨rfl, rfl⟩ := EStateM.Result.ok.inj h
    exact ⟨⟨rfl, rfl⟩, htotal, by simp, rfl⟩
  · rw [bind_eq_ok] at h
    obtain ⟨length, s₁, h₁, h⟩ := h
    obtain ⟨w, hw, rfl, hr₁, ha₁⟩ := Scan.int32_eq_ok h₁
    split at h
    · simp at h
    · rename_i hlength
      rw [bind_eq_ok] at h
      obtain ⟨raw, s₂, h₂, h⟩ := h
      obtain ⟨hraw, hr₂, ha₂⟩ := Scan.bytes_eq_ok h₂
      cases hname : Bytes.toText? raw with
      | none => simp [hname] at h
      | some name =>
        simp only [hname] at h
        obtain ⟨rfl, rfl⟩ := EStateM.Result.ok.inj h
        have htext := Bytes.ofText_of_toText? hname
        have hsize : name.utf8ByteSize = (Bytes.toInt32 w).toNat := by
          rw [← Bytes.length_ofText, htext, hraw]
        have hform : Bytes.ofNatBE 4 name.utf8ByteSize = w := by
          rw [hsize, Bytes.ofNatBE_toInt32 hw (by omega)]
        refine ⟨?_, ?_, ?_, ha₂.trans ha₁⟩
        · rw [keyNameFields, hform, htext]
          exact hr₁.trans hr₂
        · rw [keyNameWidth, hsize]; omega
        · rintro _ ⟨rfl⟩
          rw [hsize]; omega

/-- **A plain header that was read is what its constructor builds from its parts, and its encoding
is what was read.** -/
theorem decode_eq_ok {s s' : ScanState MemorySource} {h : PlainHeader}
    (hd : decode s = .ok h s') :
    Scan.Reads s h.encode s' ∧ new h.nonce h.keyName = .ok h ∧ s'.asked = s.asked := by
  rw [decode_eq, bind_eq_ok] at hd
  obtain ⟨total, s₁, h₁, hd⟩ := hd
  obtain ⟨w₁, hw₁, rfl, hr₁, ha₁⟩ := Scan.int32_eq_ok h₁
  split at hd
  · simp at hd
  · rename_i htotal
    rw [bind_eq_ok] at hd
    obtain ⟨length, s₂, h₂, hd⟩ := hd
    obtain ⟨w₂, hw₂, rfl, hr₂, ha₂⟩ := Scan.int32_eq_ok h₂
    split at hd
    · simp at hd
    · rename_i hlength
      rw [bind_eq_ok] at hd
      obtain ⟨nonce, s₃, h₃, hd⟩ := hd
      obtain ⟨hnonce, hr₃, ha₃⟩ := Scan.bytes_eq_ok h₃
      rw [bind_eq_ok] at hd
      obtain ⟨keyName, s₄, h₄, hd⟩ := hd
      obtain ⟨hr₄, hsum, hname, ha₄⟩ := decodeKeyName_eq_ok h₄
      obtain ⟨rfl, rfl⟩ := EStateM.Result.ok.inj hd
      have hform₁ : Bytes.ofNatBE 4 (length { nonce, keyName }) = w₁ := by
        rw [length, ← hsum, Bytes.ofNatBE_toInt32 hw₁ (by omega)]
      have hform₂ : Bytes.ofNatBE 4 nonce.length = w₂ := by
        rw [hnonce, Bytes.ofNatBE_toInt32 hw₂ (by omega)]
      refine ⟨?_, ?_, by rw [ha₄, ha₃, ha₂, ha₁]⟩
      · rw [encode, hform₁, hform₂]
        exact ((hr₁.trans hr₂).trans hr₃).trans hr₄
      · have hn : ¬ maxNonce < nonce.length := by omega
        unfold new
        rw [if_neg hn]
        cases keyName with
        | none => rfl
        | some name =>
          have hk := hname name rfl
          simp only
          rw [if_neg (by omega)]

/-! ## 3. What is written can be read -/

/-- The bounds that the constructor checks. -/
theorem new_eq_ok {nonce : Bytes} {keyName : Option String} {h : PlainHeader} :
    new nonce keyName = .ok h ↔ h = { nonce, keyName } ∧ nonce.length ≤ maxNonce ∧
      (∀ name, keyName = some name → name.utf8ByteSize ≤ maxKeyName) := by
  unfold new
  constructor
  · intro hok
    split at hok
    · simp at hok
    · split at hok
      · split at hok
        · simp at hok
        · obtain rfl := Except.ok.inj hok
          exact ⟨rfl, by omega, by rintro _ ⟨rfl⟩; omega⟩
      · obtain rfl := Except.ok.inj hok
        exact ⟨rfl, by omega, by simp⟩
  · rintro ⟨rfl, hn, hk⟩
    rw [if_neg (by omega)]
    cases keyName with
    | none => rfl
    | some name =>
      have := hk name rfl
      simp only
      rw [if_neg (by omega)]

/-- The announced length is the length. -/
@[simp] theorem length_encode (h : PlainHeader) : h.encode.length = h.length := by
  rcases h with ⟨nonce, _ | name⟩
  · simp [encode, length, keyNameFields, keyNameWidth, plainFixedWidth]
    omega
  · simp [encode, length, keyNameFields, keyNameWidth, plainFixedWidth, keyNameLengthWidth]
    omega

/-- A header within the bounds is short enough for its length to be a positive number. -/
theorem length_lt {h : PlainHeader} (hn : new h.nonce h.keyName = .ok h) :
    h.length < 0x80000000 := by
  obtain ⟨-, hnonce, hname⟩ := new_eq_ok.mp hn
  obtain ⟨nonce, keyName⟩ := h
  simp only [length, plainFixedWidth, maxNonce, maxKeyName] at *
  cases keyName with
  | none => simp only [keyNameWidth]; omega
  | some name =>
    have := hname name rfl
    simp only [keyNameWidth, keyNameLengthWidth]
    omega

/-- The fields that carry the key name, one by one. -/
def nameFields : Option String → List Bytes
  | none => []
  | some name => [Bytes.ofNatBE 4 name.utf8ByteSize, Bytes.ofText name]

/-- The fields of a header, one by one. -/
def fields (h : PlainHeader) : List Bytes :=
  [Bytes.ofNatBE 4 h.length, Bytes.ofNatBE 4 h.nonce.length, h.nonce] ++ nameFields h.keyName

theorem flatten_fields (h : PlainHeader) : h.fields.flatten = h.encode := by
  rcases h with ⟨nonce, _ | name⟩ <;> simp [fields, nameFields, encode, keyNameFields]

theorem expects_decodeKeyName {keyName : Option String}
    (hk : ∀ name, keyName = some name → name.utf8ByteSize ≤ maxKeyName) (before : Nat)
    (asked : List String) :
    Scan.Expects (decodeKeyName (before + keyNameWidth keyName) before) asked (nameFields keyName)
      (.ok keyName) asked := by
  rw [decodeKeyName_eq]
  cases keyName with
  | none =>
    rw [if_pos (by rw [keyNameWidth, Nat.add_zero])]
    exact .pure asked none
  | some name =>
    have hname := hk name rfl
    have hmax : maxKeyName = 500 := rfl
    have hint : Bytes.toInt32 (Bytes.ofNatBE 4 name.utf8ByteSize) = name.utf8ByteSize :=
      Bytes.toInt32_ofNatBE (by omega)
    rw [if_neg (by simp [keyNameWidth, keyNameLengthWidth])]
    refine (Scan.Expects.int32 asked (Bytes.length_ofNatBE 4 _)).bind ?_
    rw [hint, if_neg (by simp only [keyNameWidth]; omega), Int.toNat_natCast,
      ← Bytes.length_ofText name]
    refine (Scan.Expects.bytes asked _).bind ?_
    rw [Bytes.toText?_ofText]
    exact .pure asked _

/-- **A header that its constructor accepts is read back from its fields**, whatever follows, and
with less of them the reading says what is missing. -/
theorem expects_decode {h : PlainHeader} (hn : new h.nonce h.keyName = .ok h)
    (asked : List String) : Scan.Expects decode asked h.fields (.ok h) asked := by
  obtain ⟨-, hnonce, hname⟩ := new_eq_ok.mp hn
  have hmaxn : maxNonce = 255 := rfl
  have hlen : h.length = plainFixedWidth + h.nonce.length + keyNameWidth h.keyName := rfl
  have hint : Bytes.toInt32 (Bytes.ofNatBE 4 h.nonce.length) = h.nonce.length :=
    Bytes.toInt32_ofNatBE (by omega)
  rw [decode_eq]
  refine (Scan.Expects.int32 asked (Bytes.length_ofNatBE 4 _)).bind ?_
  rw [Bytes.toInt32_ofNatBE (length_lt hn), if_neg (by omega)]
  refine (Scan.Expects.int32 asked (Bytes.length_ofNatBE 4 _)).bind ?_
  rw [hint, if_neg (by omega), Int.toNat_natCast, Int.toNat_natCast]
  refine (Scan.Expects.bytes asked h.nonce).bind ?_
  exact (expects_decodeKeyName hname _ asked).map (PlainHeader.mk h.nonce)

/-! ## 4. Memory and stream -/

theorem parallel_decodeKeyName (failure : Option TransportError) (total before : Nat) :
    Scan.Parallel failure (decodeKeyName total before : Scan MemorySource (Option String))
      (decodeKeyName total before) := by
  rw [decodeKeyName_eq, decodeKeyName_eq]
  refine .ite (.pure none) (.bind .int32 fun length => .ite (.refuse (by simp)) ?_)
  refine .bind (.bytes _) fun name => ?_
  cases Bytes.toText? name with
  | some name => exact .pure _
  | none => exact .refuse (by simp)

/-- **Plain headers are read alike from memory and from a stream.** -/
theorem parallel_decode (failure : Option TransportError) :
    Scan.Parallel failure (decode : Scan MemorySource PlainHeader) decode := by
  rw [decode_eq, decode_eq]
  refine .bind .int32 fun total => .ite (.refuse (by simp)) ?_
  refine .bind .int32 fun length => .ite (.refuse (by simp)) ?_
  refine .bind (.bytes _) fun nonce => ?_
  exact .bind (parallel_decodeKeyName failure _ _) fun keyName => .pure _

end Envelope.PlainHeader

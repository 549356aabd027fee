/-
# Complete fields and cut ones

What stands in front of a reading is a chain of fields, or the beginning of one.  Two things are
said here of a reading that knows what it is looking for (`Expects`).

* *All of the fields are there*: it takes them and nothing behind them, and it ends in the outcome
  that belongs to them, which may be a failure.
* *Less is there*: it fails, and says how many bytes are missing from the first field that is not
  complete (`missing`).  It does not matter then what the outcome would have been.

Both pass along a chain of readings, where the fields stand one behind the other (`Expects.bind`).
A layout lists its fields once, and it follows that what is written can be read, and what becomes of
it when it is cut off anywhere.  Readers that deliver the same bytes change nothing of this.
-/
import Envelope.Proofs.Scan

namespace Envelope

/-! ## 1. What is missing -/

/-- **How many bytes are missing** from the first of some fields that is not complete, when there
are `k` bytes.  A field of no bytes is always complete. -/
def missing : List Bytes → Nat → Nat
  | [], _ => 0
  | field :: fields, k =>
    if field.length ≤ k then missing fields (k - field.length) else field.length - k

/-- Fields that are cut are cut in the same place whatever fields follow. -/
theorem missing_append_of_lt {fields : List Bytes} {k : Nat} (h : k < fields.flatten.length)
    (more : List Bytes) : missing (fields ++ more) k = missing fields k := by
  induction fields generalizing k with
  | nil => simp at h
  | cons field fields ih =>
    rw [List.flatten_cons, List.length_append] at h
    rw [List.cons_append, missing, missing]
    split
    · exact ih (by omega)
    · rfl

/-- Fields that are complete are skipped. -/
theorem missing_append_of_le {fields : List Bytes} {k : Nat} (h : fields.flatten.length ≤ k)
    (more : List Bytes) :
    missing (fields ++ more) k = missing more (k - fields.flatten.length) := by
  induction fields generalizing k with
  | nil => rfl
  | cons field fields ih =>
    rw [List.flatten_cons, List.length_append] at h
    rw [List.cons_append, missing, if_pos (by omega), ih (by omega), List.flatten_cons,
      List.length_append, Nat.sub_sub]

/-- **Where the cut is.**  The fields before it are complete, the field it is in is not, and what is
missing is the rest of that field. -/
theorem missing_cut {fields : List Bytes} {k : Nat} (h : k < fields.flatten.length) :
    ∃ before field after, fields = before ++ field :: after ∧ before.flatten.length ≤ k ∧
      k < before.flatten.length + field.length ∧
      missing fields k = before.flatten.length + field.length - k := by
  induction fields generalizing k with
  | nil => simp at h
  | cons field fields ih =>
    rw [List.flatten_cons, List.length_append] at h
    rcases Nat.lt_or_ge k field.length with hin | hbehind
    · refine ⟨[], field, fields, rfl, Nat.zero_le _, by simpa using hin, ?_⟩
      rw [missing, if_neg (by omega), List.flatten_nil, List.length_nil, Nat.zero_add]
    · obtain ⟨before, cut, after, hfields, hle, hlt, hmissing⟩ :=
        ih (k := k - field.length) (by omega)
      refine ⟨field :: before, cut, after, by rw [hfields, List.cons_append], ?_⟩
      rw [missing, if_pos hbehind, hmissing, List.flatten_cons, List.length_append]
      omega

namespace Scan

variable {α β : Type}

/-! ## 2. Readings that know their fields -/

/-- A reading that has ended in an outcome. -/
def ended {σ : Type} (outcome : Except Failure α) (s : σ) : EStateM.Result Failure σ α :=
  match outcome with
  | .ok a => .ok a s
  | .error e => .error e s

/-- **What a reading comes to, of fields in memory**: with all of them in front of anything, and
with less.  `asked` are the names that were asked for before, and `asked'` those after all of it. -/
structure Expects (x : Scan MemorySource α) (asked : List String) (fields : List Bytes)
    (outcome : Except Failure α) (asked' : List String) : Prop where
  complete : ∀ s rest, s.asked = asked → s.source.unread = fields.flatten ++ rest →
    ∃ s', x s = ended outcome s' ∧ Reads s fields.flatten s' ∧ s'.asked = asked'
  cut : ∀ s k, s.asked = asked → k < fields.flatten.length →
    s.source.unread = fields.flatten.take k →
      ∃ s', x s = .error (.truncated (missing fields k)) s'

theorem Reads.unread {s s' : ScanState MemorySource} {w rest : Bytes} (h : Reads s w s')
    (hu : s.source.unread = w ++ rest) : s'.source.unread = rest :=
  List.append_cancel_left (h.1.symm.trans hu)

namespace Expects

variable {asked asked' asked'' : List String} {fields fields' : List Bytes}

/-- A reading that takes nothing. -/
theorem of_none {x : Scan MemorySource α} {outcome : Except Failure α}
    (h : ∀ s, s.asked = asked → ∃ s', x s = ended outcome s' ∧ Reads s [] s' ∧ s'.asked = asked') :
    Expects x asked [] outcome asked' where
  complete s rest ha _ := h s ha
  cut s k _ hk _ := by simp at hk

theorem pure (asked : List String) (a : α) :
    Expects (Pure.pure a : Scan MemorySource α) asked [] (.ok a) asked :=
  of_none fun s ha => ⟨s, rfl, ⟨rfl, rfl⟩, ha⟩

theorem throw (asked : List String) (e : Failure) :
    Expects (throw e : Scan MemorySource α) asked [] (.error e) asked :=
  of_none fun s ha => ⟨s, rfl, ⟨rfl, rfl⟩, ha⟩

theorem mark (asked : List String) :
    Expects (Scan.mark : Scan MemorySource Unit) asked [] (.ok ()) asked :=
  of_none fun s ha => ⟨remember s, mark_eq s, ⟨rfl, rfl⟩, ha⟩

/-- A question takes no byte, and is noted. -/
theorem asking {r : Resolver} {name : String} {key : Key} (hk : r.answer asked name = some key) :
    Expects (Scan.asking (r.key name) : Scan MemorySource Key) asked [] (.ok key)
      (asked ++ [name]) := by
  refine of_none fun s ha => ⟨note name s, ?_, ⟨rfl, rfl⟩, by rw [note, ha]⟩
  rw [asking_key, ha, hk]
  rfl

/-- **One reading behind another**: the fields of the second stand behind those of the first. -/
theorem bind {x : Scan MemorySource α} {f : α → Scan MemorySource β} {a : α}
    {outcome : Except Failure β} (hx : Expects x asked fields (.ok a) asked')
    (hf : Expects (f a) asked' fields' outcome asked'') :
    Expects (x >>= f) asked (fields ++ fields') outcome asked'' where
  complete s rest ha hu := by
    rw [List.flatten_append, List.append_assoc] at hu
    obtain ⟨s₁, h₁, hr₁, ha₁⟩ := hx.complete s _ ha hu
    obtain ⟨s₂, h₂, hr₂, ha₂⟩ := hf.complete s₁ rest ha₁ (hr₁.unread hu)
    refine ⟨s₂, ?_, ?_, ha₂⟩
    · rw [bind_of_ok h₁, h₂]
    · rw [List.flatten_append]
      exact hr₁.trans hr₂
  cut s k ha hk hu := by
    rw [List.flatten_append] at hu
    rw [List.flatten_append, List.length_append] at hk
    rcases Nat.lt_or_ge k fields.flatten.length with hin | hbehind
    · -- the cut is in the fields of the first reading
      rw [List.take_append_of_le_length hin.le] at hu
      obtain ⟨s₁, h₁⟩ := hx.cut s k ha hin hu
      exact ⟨s₁, by rw [bind_of_error h₁, missing_append_of_lt hin]⟩
    · rw [List.take_append, List.take_of_length_le hbehind] at hu
      obtain ⟨s₁, h₁, hr₁, ha₁⟩ := hx.complete s _ ha hu
      obtain ⟨s₂, h₂⟩ := hf.cut s₁ _ ha₁ (by omega) (hr₁.unread hu)
      exact ⟨s₂, by rw [bind_of_ok h₁, h₂, missing_append_of_le hbehind]⟩

/-- A result that is only looked at differently. -/
theorem map {x : Scan MemorySource α} {outcome : Except Failure α}
    (hx : Expects x asked fields outcome asked') (g : α → β) :
    Expects (x >>= fun a => Pure.pure (g a)) asked fields (outcome.map g) asked' where
  complete s rest ha hu := by
    obtain ⟨s', hs', hr, ha'⟩ := hx.complete s rest ha hu
    refine ⟨s', ?_, hr, ha'⟩
    cases outcome with
    | ok a => exact bind_of_ok hs'
    | error e => exact bind_of_error hs'
  cut s k ha hk hu := by
    obtain ⟨s', hs'⟩ := hx.cut s k ha hk hu
    exact ⟨s', bind_of_error hs'⟩

/-- **Bytes are a field**, the only kind there is. -/
theorem bytes (asked : List String) (w : Bytes) :
    Expects (Scan.bytes w.length) asked [w] (.ok w) asked where
  complete s rest ha hu := by
    rw [List.flatten_singleton] at hu ⊢
    have h := bytes_append hu rfl
    obtain ⟨-, hr, ha'⟩ := bytes_eq_ok h
    exact ⟨advance w.length s, h, hr, ha'.trans ha⟩
  cut s k ha hk hu := by
    rw [List.flatten_singleton] at hk hu
    have hlength : s.source.unread.length = k := by
      rw [hu, List.length_take]
      omega
    refine ⟨s, ?_⟩
    rw [Scan.bytes, onSource_eq]
    simp only [Source.take, MemorySource.take_of_lt (hlength.trans_lt hk), hlength, missing,
      if_neg (not_le.mpr hk)]

theorem byte (asked : List String) (b : UInt8) : Expects Scan.byte asked [[b]] (.ok b) asked := by
  rw [byte_eq]
  exact (bytes asked [b]).map fun w => w.headD 0

theorem int32 (asked : List String) {w : Bytes} (hw : w.length = 4) :
    Expects Scan.int32 asked [w] (.ok (Bytes.toInt32 w)) asked := by
  have h := (bytes asked w).map Bytes.toInt32
  rwa [hw, ← int32_eq] at h

/-! ## 3. The same fields on a stream -/

variable {x : Scan MemorySource α} {y : Scan StreamSource α} {outcome : Except Failure α}
  {failure : Option TransportError} {reader : Reader}

/-- **Fields that a reader delivers come to what they come to in memory**, however the reader cuts
them and whatever it does behind them.  A failure has to be one that does not depend on how the
stream ends. -/
theorem complete_ofReader (he : Expects x asked fields outcome asked')
    (hp : Parallel failure x y) (hsame : ∀ e, outcome = .error e → e.atEnd failure = e)
    {rest : Bytes} (hd : reader.Delivers (fields.flatten ++ rest) failure) :
    ∃ t, y ⟨.ofReader reader, asked⟩ = ended outcome t ∧ t.asked = asked' := by
  obtain ⟨s', hs', -, ha⟩ := he.complete ⟨.ofBytes (fields.flatten ++ rest), asked⟩ rest rfl rfl
  have halike := hp ⟨.ofBytes (fields.flatten ++ rest), asked⟩ ⟨.ofReader reader, asked⟩
    ⟨rfl, Envelope.Follows.ofReader hd⟩
  rw [hs'] at halike
  cases outcome with
  | ok a =>
    obtain ⟨_, t, hy, rfl, hasked, -⟩ := halike.of_ok
    exact ⟨t, hy, hasked.trans ha⟩
  | error e =>
    obtain ⟨e', t, hy, hsays, hasked, -⟩ := halike.of_error
    refine ⟨t, ?_, hasked.trans ha⟩
    rw [hy, hsays, hsame e rfl]
    rfl

/-- **Fields that are cut off on a stream** miss what they miss in memory, if the stream has just
ended. -/
theorem cut_ofReader (he : Expects x asked fields outcome asked') (hp : Parallel none x y) {k : Nat}
    (hk : k < fields.flatten.length) (hd : reader.Delivers (fields.flatten.take k) none) :
    ∃ t, y ⟨.ofReader reader, asked⟩ = .error (.truncated (missing fields k)) t := by
  obtain ⟨s', hs'⟩ := he.cut ⟨.ofBytes (fields.flatten.take k), asked⟩ k rfl hk rfl
  have halike := hp ⟨.ofBytes (fields.flatten.take k), asked⟩ ⟨.ofReader reader, asked⟩
    ⟨rfl, Envelope.Follows.ofReader hd⟩
  rw [hs'] at halike
  obtain ⟨_, t, hy, rfl, -⟩ := halike.of_error
  exact ⟨t, hy⟩

end Expects

end Scan

end Envelope

/-
# Headers have one form

Opening a stream does not keep the header it has read.  It writes the header again, under the key
that was found, and uses that as associated data; opening a whole message uses the bytes as they
stand.  The two agree only because a header that is accepted has one form, and that is the main
result here (`ofBytes_canonical`).  It is put together from the same result for each layout and from
the fact that looking at the marker leaves no trace.

The other results are the two that the sealer needs besides: what is written is read back
(`ofBytes_encodeWith`), and a stream is read like memory (`parallel_decode`).  The last one is where
the mark is used: four bytes were read since, which is just as many as a stream can take back.
-/
import Envelope.Proofs.Header.Authenticated
import Envelope.Proofs.Header.Plain
import Envelope.Header

namespace Envelope.Header

/-! ## 1. What a header can be -/

/-- **The header is what the constructor of its layout builds** from its nonce and its key name.
The constructor attaches no resolver. -/
def Built : Header → Prop
  | .plain h => PlainHeader.new h.nonce h.keyName = .ok h
  | .authenticated h =>
    AuthenticatedHeader.new h.nonce h.keyName = .ok { h with resolver := none }

/-- The bounds of the format: on the nonce in both layouts, on the key name where there is one, and
in an authenticated header one of at least one byte and without the byte that ends it. -/
def Bounded (h : Header) : Prop :=
  h.nonce.length ≤ maxNonce ∧
    match h with
    | .plain h => ∀ name, h.keyName = some name → name.utf8ByteSize ≤ maxKeyName
    | .authenticated h =>
      h.keyName ≠ "" ∧ h.keyName.utf8ByteSize ≤ maxKeyName ∧ keyNameEnd ∉ Bytes.ofText h.keyName

/-- What a constructor builds is within the bounds. -/
theorem Built.bounded {h : Header} (hb : h.Built) : h.Bounded := by
  cases h with
  | plain h =>
    obtain ⟨-, hn, hk⟩ := PlainHeader.new_eq_ok.mp hb
    exact ⟨hn, hk⟩
  | authenticated h =>
    obtain ⟨-, hc, hn⟩ := AuthenticatedHeader.new_eq_ok.mp hb
    obtain ⟨hz, hl, hm⟩ := AuthenticatedHeader.checkKeyName_eq_ok.mp hc
    refine ⟨hn, ?_, hl, hm⟩
    intro he
    rw [he] at hz
    exact hz rfl

/-- **No header is longer** than an authenticated one with the longest name and the longest
nonce. -/
theorem Bounded.length_le {h : Header} (hb : h.Bounded) :
    h.length ≤ markerWidth + maxKeyName + 1 + 1 + maxNonce + headerTagWidth := by
  obtain ⟨hnonce, hname⟩ := hb
  cases h with
  | plain h =>
    have hfields : PlainHeader.keyNameWidth h.keyName ≤ keyNameLengthWidth + maxKeyName := by
      cases hk : h.keyName with
      | none => exact Nat.zero_le _
      | some name => exact Nat.add_le_add_left (hname name hk) _
    simp only [length, nonce, PlainHeader.length, plainFixedWidth, keyNameLengthWidth, maxNonce,
      maxKeyName, markerWidth, headerTagWidth] at hnonce hfields ⊢
    omega
  | authenticated h =>
    obtain ⟨-, hlong, -⟩ := hname
    simp only [length, nonce, AuthenticatedHeader.length] at hnonce ⊢
    omega

/-- The header with a resolver attached, if it has a place for one. -/
def attach (r : Resolver) : Header → Header
  | .plain h => .plain h
  | .authenticated h => .authenticated { h with resolver := some r }

@[simp] theorem nonce_attach (r : Resolver) (h : Header) : (h.attach r).nonce = h.nonce := by
  cases h <;> rfl

@[simp] theorem keyName_attach (r : Resolver) (h : Header) : (h.attach r).keyName = h.keyName := by
  cases h <;> rfl

/-- The announced length is the length, whatever the key. -/
@[simp] theorem length_encodeWith (h : Header) (key : Key) :
    (h.encodeWith key).length = h.length := by
  cases h with
  | plain h => exact h.length_encode
  | authenticated h => exact h.length_encodeWith key

/-- As many bytes as a header announces are the header, if they begin with it. -/
@[simp] theorem take_encodeWith_append (h : Header) (key : Key) (rest : Bytes) :
    (h.encodeWith key ++ rest).take h.length = h.encodeWith key :=
  List.take_left' (h.length_encodeWith key)

/-- What follows them is what follows the header. -/
@[simp] theorem drop_encodeWith_append (h : Header) (key : Key) (rest : Bytes) :
    (h.encodeWith key ++ rest).drop h.length = rest :=
  List.drop_left' (h.length_encodeWith key)

/-! ## 2. The two layouts told apart -/

variable {σ : Type} [Source σ]

/-- **The marker decides**; a plain header is read from the beginning again. -/
theorem decode_eq (r : Resolver) :
    (decode r : Scan σ Header) =
      Scan.mark >>= fun _ => Scan.int32 >>= fun marker =>
        if marker ≠ authenticatedMarker then
          Scan.rewind >>= fun _ => PlainHeader.decode >>= fun h => pure (.plain h)
        else AuthenticatedHeader.afterMarker r >>= fun h => pure (.authenticated h) := by
  unfold decode
  rw [AuthenticatedHeader.probe_eq, bind_assoc]
  refine bind_congr fun _ => bind_congr fun marker => ?_
  split
  · rfl
  · rw [bind_assoc]
    rfl

/-! ## 3. What was read can be written -/

/-- **What was read is the one form of the header**: `r` finds a key for an authenticated one, and
its encoding under this key is what was read. -/
def Spells (r : Resolver) (asked : List String) (h : Header) (w : Bytes) : Prop :=
  match h with
  | .plain h => h.encode = w
  | .authenticated h =>
    ∃ key, r.answer asked h.keyName = some key ∧ h.encodeWith key = w ∧ h.resolver = some r

/-- What a header spells is as long as it announces. -/
theorem Spells.length {r : Resolver} {asked : List String} {h : Header} {w : Bytes}
    (hw : h.Spells r asked w) : w.length = h.length := by
  cases h with
  | plain h =>
    obtain rfl : h.encode = w := hw
    exact h.length_encode
  | authenticated h =>
    obtain ⟨key, -, rfl, -⟩ := hw
    exact h.length_encodeWith key

/-- What a header spells is its encoding under some key. -/
theorem Spells.exists_encodeWith {r : Resolver} {asked : List String} {h : Header} {w : Bytes}
    (hw : h.Spells r asked w) : ∃ key, h.encodeWith key = w := by
  cases h with
  | plain h => exact ⟨⟨[]⟩, hw⟩
  | authenticated h =>
    obtain ⟨key, -, hform, -⟩ := hw
    exact ⟨key, hform⟩

theorem decode_eq_ok {r : Resolver} {s s' : ScanState MemorySource} {h : Header}
    (hd : decode r s = .ok h s') :
    h.Built ∧ ∃ w, Scan.Reads s w s' ∧ h.Spells r s.asked w := by
  rw [decode_eq, bind_of_ok (Scan.mark_eq s), bind_eq_ok] at hd
  obtain ⟨marker, s₁, h₁, hd⟩ := hd
  obtain rfl := Scan.advance_of_int32 h₁
  obtain ⟨w₁, hw₁, hmarker, hr₁, ha₁⟩ := Scan.int32_eq_ok h₁
  split at hd
  · rw [bind_of_ok (Scan.rewind_advance 4 s), bind_eq_ok] at hd
    obtain ⟨p, s₂, h₂, hd⟩ := hd
    obtain ⟨rfl, rfl⟩ := EStateM.Result.ok.inj hd
    obtain ⟨hr, hn, -⟩ := PlainHeader.decode_eq_ok h₂
    exact ⟨hn, p.encode, hr, rfl⟩
  · rename_i hm
    rw [not_not] at hm
    rw [bind_eq_ok] at hd
    obtain ⟨a, s₂, h₂, hd⟩ := hd
    obtain ⟨rfl, rfl⟩ := EStateM.Result.ok.inj hd
    obtain ⟨key, w, hkey, -, hform, hr, hn, ha⟩ := AuthenticatedHeader.afterMarker_eq_ok h₂
    have hw : Bytes.ofInt32 authenticatedMarker = w₁ := by
      rw [← hm, hmarker, Bytes.ofInt32_toInt32 hw₁]
    refine ⟨hn, w₁ ++ w, Scan.Reads.trans hr₁ hr, key, hkey, ?_, ha⟩
    rw [hform, hw]

/-- The header of some bytes, read from their beginning. -/
theorem ofBytes_eq_ok {r : Resolver} {b : Bytes} {asked asked' : List String} {h : Header} {n : Nat}
    (hd : ofBytes r b asked = .ok (h, n) asked') :
    n ≤ b.length ∧ h.Built ∧ h.Spells r asked (b.take n) := by
  unfold ofBytes at hd
  split at hd
  · rename_i h₁ s' h₂
    obtain ⟨⟨⟩, rfl⟩ := EStateM.Result.ok.inj hd
    obtain ⟨hbuilt, w, ⟨hu, hp⟩, hw⟩ := decode_eq_ok h₂
    have hlen : s'.source.position = w.length := by
      rw [hp]
      exact Nat.zero_add _
    have hb : b = w ++ s'.source.unread := hu
    refine ⟨?_, hbuilt, ?_⟩
    · rw [hlen, hb, List.length_append]
      omega
    · rw [hlen, hb, List.take_left]
      exact hw
  · simp at hd

/-- **Writing a header again under the key its name stands for gives the bytes it was read
from.** -/
theorem encodeWith_of_ofBytes {f : String → Option Key} {b : Bytes} {asked asked' : List String}
    {h : Header} {n : Nat} {key : Key} (hd : ofBytes (.ofFunction f) b asked = .ok (h, n) asked')
    (hk : ∀ name, h.keyName = some name → f name = some key) : h.encodeWith key = b.take n := by
  obtain ⟨-, -, hw⟩ := ofBytes_eq_ok hd
  cases h with
  | plain h => exact hw
  | authenticated h =>
    obtain ⟨key₁, hkey, hform, -⟩ := hw
    have hsame : some key = some key₁ := by
      rw [← hk h.keyName rfl]
      exact hkey
    rw [Option.some.inj hsame]
    exact hform

/-! ## 4. What is written can be read -/

/-- What reading does with a header that does not begin with the marker. -/
theorem decode_foreign {r : Resolver} {s : ScanState MemorySource} {w rest : Bytes}
    (hu : s.source.unread = w ++ rest) (hw : w.length = 4)
    (hm : Bytes.toInt32 w ≠ authenticatedMarker) :
    decode r s =
      (PlainHeader.decode >>= fun h => pure (.plain h) : Scan MemorySource Header)
        (Scan.remember s) := by
  have hu₁ : (Scan.remember s).source.unread = w ++ rest := hu
  rw [decode_eq, bind_of_ok (Scan.mark_eq s), bind_of_ok (Scan.int32_append hu₁ hw), if_pos hm,
    bind_of_ok (Scan.rewind_advance 4 s)]

/-- What reading does with a header that begins with the marker. -/
theorem decode_marked {r : Resolver} {s : ScanState MemorySource} {rest : Bytes}
    (hu : s.source.unread = Bytes.ofInt32 authenticatedMarker ++ rest) :
    decode r s =
      (AuthenticatedHeader.afterMarker r >>= fun h => pure (.authenticated h) :
        Scan MemorySource Header) (Scan.advance 4 (Scan.remember s)) := by
  have hu₁ : (Scan.remember s).source.unread = Bytes.ofInt32 authenticatedMarker ++ rest := hu
  have hm : Bytes.toInt32 (Bytes.ofInt32 authenticatedMarker) = authenticatedMarker := by decide
  rw [decode_eq, bind_of_ok (Scan.mark_eq s), bind_of_ok (Scan.int32_append hu₁ rfl), hm,
    if_neg (not_not.mpr rfl)]

/-- The fields of a header, one by one; the tag of an authenticated one is made under a key. -/
def fields (key : Key) : Header → List Bytes
  | .plain h => h.fields
  | .authenticated h => h.fieldsWith (Hmac.code key.bytes h.covered)

theorem flatten_fields (key : Key) (h : Header) : (h.fields key).flatten = h.encodeWith key := by
  cases h with
  | plain h => exact h.flatten_fields
  | authenticated h => exact h.flatten_fieldsWith _

/-- A plain header begins with its length, which is not the marker; so it is read as one. -/
theorem expects_plain {h : PlainHeader} (hb : Built (.plain h)) (r : Resolver)
    (asked : List String) : Scan.Expects (decode r) asked h.fields (.ok (.plain h)) asked := by
  obtain ⟨total, htotal⟩ : ∃ total, total = Bytes.ofNatBE 4 h.length := ⟨_, rfl⟩
  obtain ⟨behind, hfields⟩ : ∃ behind, h.fields = [total] ++ behind := by
    rw [htotal]
    exact ⟨_, rfl⟩
  have hwidth : total.length = 4 := by rw [htotal]; exact Bytes.length_ofNatBE 4 _
  have hflat : h.fields.flatten = total ++ behind.flatten := by rw [hfields]; rfl
  have hforeign : Bytes.toInt32 total ≠ authenticatedMarker := by
    rw [htotal, Bytes.toInt32_ofNatBE (PlainHeader.length_lt hb)]
    have hmarker : authenticatedMarker = -2 := rfl
    omega
  have hplain := (PlainHeader.expects_decode hb asked).map Header.plain
  constructor
  · intro s rest ha hu
    have hu₁ : s.source.unread = total ++ (behind.flatten ++ rest) := by
      rw [hu, hflat, List.append_assoc]
    rw [decode_foreign hu₁ hwidth hforeign]
    exact hplain.complete (Scan.remember s) rest ha hu
  · intro s k ha hk hu
    rcases Nat.lt_or_ge k total.length with hshort | hlong
    · -- not even the number is there that could be the marker
      have hone : k < [total].flatten.length := by rwa [List.flatten_singleton]
      have hthere : s.source.unread = [total].flatten.take k := by
        rw [hu, hflat, List.take_append_of_le_length hshort.le, List.flatten_singleton]
      obtain ⟨s', hs'⟩ := (Scan.Expects.int32 asked hwidth).cut (Scan.remember s) k ha hone hthere
      refine ⟨s', ?_⟩
      rw [decode_eq, bind_of_ok (Scan.mark_eq s), bind_of_error hs', hfields,
        missing_append_of_lt hone]
    · have hu₁ : s.source.unread = total ++ behind.flatten.take (k - total.length) := by
        rw [hu, hflat, List.take_append, List.take_of_length_le hlong]
      rw [decode_foreign hu₁ hwidth hforeign]
      exact hplain.cut (Scan.remember s) k ha hk hu

/-- An authenticated header begins with the marker, and asks for its name.  Its tag decides. -/
theorem expects_authenticated {h : AuthenticatedHeader} (hb : Built (.authenticated h))
    {r : Resolver} {key : Key} {asked : List String} (hk : r.answer asked h.keyName = some key)
    {tag : Bytes} (ht : tag.length = headerTagWidth) :
    Scan.Expects (decode r) asked (h.fieldsWith tag) ((h.judged r key tag).map .authenticated)
      (asked ++ [h.keyName]) := by
  have hm : Bytes.toInt32 (Bytes.ofInt32 authenticatedMarker) = authenticatedMarker := by decide
  rw [decode_eq]
  refine (Scan.Expects.mark asked).bind ((Scan.Expects.int32 asked rfl).bind ?_)
  rw [hm, if_neg (not_not.mpr rfl)]
  exact (AuthenticatedHeader.expects_afterMarker hb hk ht).map Header.authenticated

/-- **What reading some bytes comes to** that begin with fields. -/
theorem ofBytes_of_expects {r : Resolver} {asked asked' : List String} {fields : List Bytes}
    {outcome : Except Failure Header}
    (he : Scan.Expects (decode r) asked fields outcome asked') (rest : Bytes) :
    ofBytes r (fields.flatten ++ rest) asked =
      Scan.ended (outcome.map (·, fields.flatten.length)) asked' := by
  obtain ⟨s', hs', ⟨-, hp⟩, ha⟩ :=
    he.complete ⟨MemorySource.ofBytes (fields.flatten ++ rest), asked⟩ rest rfl rfl
  have hposition : s'.source.position = fields.flatten.length := by
    rw [hp]
    exact Nat.zero_add _
  rw [ofBytes, hs']
  cases outcome with
  | ok h => simp only [Scan.ended, Except.map, hposition, ha]
  | error e => simp only [Scan.ended, Except.map, ha]

/-- What reading some bytes comes to that are fields cut short. -/
theorem ofBytes_of_cut {r : Resolver} {asked asked' : List String} {fields : List Bytes}
    {outcome : Except Failure Header} (he : Scan.Expects (decode r) asked fields outcome asked')
    {k : Nat} (hk : k < fields.flatten.length) :
    ∃ after, ofBytes r (fields.flatten.take k) asked =
      .error (.truncated (missing fields k)) after := by
  obtain ⟨s', hs'⟩ :=
    he.cut ⟨MemorySource.ofBytes (fields.flatten.take k), asked⟩ k rfl hk rfl
  exact ⟨s'.asked, by rw [ofBytes, hs']⟩

theorem ofBytes_plain {h : PlainHeader} (hb : Built (.plain h)) (r : Resolver) (asked : List String)
    (rest : Bytes) :
    ofBytes r (h.encode ++ rest) asked = .ok (.plain h, h.length) asked := by
  have hread := ofBytes_of_expects (expects_plain hb r asked) rest
  rw [h.flatten_fields, h.length_encode] at hread
  exact hread

theorem ofBytes_authenticated {h : AuthenticatedHeader} (hb : Built (.authenticated h))
    {r : Resolver} {key : Key} {asked : List String} (hk : r.answer asked h.keyName = some key)
    (rest : Bytes) :
    ofBytes r (h.encodeWith key ++ rest) asked =
      .ok (.authenticated { h with resolver := some r }, h.length) (asked ++ [h.keyName]) := by
  have htag := Hmac.length_code key.bytes h.covered
  have hread := ofBytes_of_expects (expects_authenticated hb hk htag) rest
  rw [AuthenticatedHeader.judged, if_pos rfl, h.flatten_fieldsWith] at hread
  rw [← h.length_encodeWith key]
  exact hread

/-- **A header that its constructor builds is read back from its encoding**, whatever follows it, if
the resolver finds the key of an authenticated one.  The resolver is attached to it. -/
theorem ofBytes_encodeWith {r : Resolver} {h : Header} {key : Key} {asked : List String}
    (hb : h.Built) (hk : ∀ a, h = .authenticated a → r.answer asked a.keyName = some key)
    (rest : Bytes) :
    ∃ asked', ofBytes r (h.encodeWith key ++ rest) asked = .ok (h.attach r, h.length) asked' := by
  cases h with
  | plain h => exact ⟨asked, ofBytes_plain hb r asked rest⟩
  | authenticated h => exact ⟨asked ++ [h.keyName], ofBytes_authenticated hb (hk h rfl) rest⟩

/-- **A header is found whatever stands behind it**: more bytes at the end change nothing. -/
theorem ofBytes_append {r : Resolver} {b : Bytes} {asked asked' : List String} {h : Header}
    {n : Nat} (hd : ofBytes r b asked = .ok (h, n) asked') (more : Bytes) :
    ofBytes r (b ++ more) asked = .ok (h, n) asked' := by
  obtain ⟨-, hbuilt, hw⟩ := ofBytes_eq_ok hd
  -- the header is read back from its encoding, once with and once without the rest
  have hsplit : b.take n ++ b.drop n = b := List.take_append_drop n b
  cases h with
  | plain p =>
    have hform : p.encode = b.take n := hw
    rw [← hsplit, ← hform, ofBytes_plain hbuilt] at hd
    rw [← hsplit, ← hform, List.append_assoc, ofBytes_plain hbuilt, hd]
  | authenticated a =>
    obtain ⟨key, hkey, hform, -⟩ := hw
    have hform : a.encodeWith key = b.take n := hform
    rw [← hsplit, ← hform, ofBytes_authenticated hbuilt hkey] at hd
    rw [← hsplit, ← hform, List.append_assoc, ofBytes_authenticated hbuilt hkey, hd]

/-! ## 5. One form -/

/-- **A header that is accepted has one form.**  For every byte string and every resolver that is a
function of the name: the number of bytes taken is the header's length; the header is what its
constructor builds, and so within the bounds of the format; the bytes taken are its encoding, under
the key that its name stands for if it is authenticated; and encoding it again with the resolver
that was attached to it gives them once more. -/
theorem ofBytes_canonical {f : String → Option Key} {b : Bytes} {asked asked' : List String}
    {h : Header} {n : Nat} (hd : ofBytes (.ofFunction f) b asked = .ok (h, n) asked') :
    n = h.length ∧ n ≤ b.length ∧ h.Built ∧ h.Bounded ∧ h.Spells (.ofFunction f) asked (b.take n) ∧
      ∀ before, ∃ after, h.encode before = .ok (b.take n) after := by
  obtain ⟨hle, hbuilt, hw⟩ := ofBytes_eq_ok hd
  have htaken : (b.take n).length = n := by rw [List.length_take]; omega
  refine ⟨?_, hle, hbuilt, hbuilt.bounded, hw, ?_⟩
  · rw [← hw.length, htaken]
  · intro before
    cases h with
    | plain h =>
      have hform : h.encode = b.take n := hw
      exact ⟨before, by rw [encode, hform]; rfl⟩
    | authenticated h =>
      obtain ⟨key, hkey, hform, hr⟩ := hw
      refine ⟨before ++ [h.keyName], ?_⟩
      simp only [encode, AuthenticatedHeader.encode, hr]
      have hanswer : (Resolver.ofFunction f).answer before h.keyName = some key := hkey
      rw [bind_of_ok (Resolver.key_of_answer hanswer), hform]
      rfl

/-- The canonical form at work: an authenticated header with a name of one byte, and three bytes of
a body behind it. -/
theorem ofBytes_canonical_name_k :
    ∃ h n after,
      ofBytes (.ofFunction fun _ => some ⟨[7]⟩)
          (encodeWith ⟨[7]⟩ (.authenticated { nonce := [5], keyName := "k", resolver := none }) ++
            [1, 2, 3]) [] = .ok (h, n) after ∧
        h.keyName = some "k" ∧ n = h.length ∧ h.Built ∧ h.Bounded := by
  have hb : Built (.authenticated { nonce := [5], keyName := "k", resolver := none }) :=
    AuthenticatedHeader.new_eq_ok.mpr ⟨rfl, rfl, by decide⟩
  obtain ⟨after, hd⟩ : ∃ after, ofBytes (.ofFunction fun _ => some ⟨[7]⟩)
      (encodeWith ⟨[7]⟩ (.authenticated { nonce := [5], keyName := "k", resolver := none }) ++
        [1, 2, 3]) [] = .ok _ after :=
    ofBytes_encodeWith hb (fun _ _ => rfl) [1, 2, 3]
  obtain ⟨hn, -, hbuilt, hbounded, -⟩ := ofBytes_canonical hd
  exact ⟨_, _, after, hd, rfl, hn, hbuilt, hbounded⟩

/-! ## 6. Memory and stream -/

/-- **A header is read alike from memory and from a stream**, in both layouts. -/
theorem parallel_decode (failure : Option TransportError) (r : Resolver) :
    Scan.Parallel failure (decode r : Scan MemorySource Header) (decode r) := by
  intro s t hst
  rw [decode_eq, decode_eq]
  -- four bytes since the mark: the stream can go back
  have hmark : Alike
      (fun _ _ s t => Scan.Follows failure s t ∧ t.source.marked = true ∧ t.source.sinceMark = 0)
      (Scan.FailAlike failure) (Scan.mark s) (Scan.mark t) :=
    ⟨⟨hst.1, hst.2.mark⟩, rfl, rfl⟩
  refine hmark.bind ?_
  rintro _ _ s t ⟨hst, hm, h0⟩
  have hint : Alike
      (fun i j s t => j = i ∧ Scan.Follows failure s t ∧ t.source.marked = true ∧
        t.source.sinceMark = 4)
      (Scan.FailAlike failure) (Scan.int32 s) (Scan.int32 t) := by
    rw [Scan.int32_eq, Scan.int32_eq]
    refine (Scan.alike_bytes 4 hst).bind ?_
    rintro w _ s₁ t₁ ⟨rfl, hst₁, hmarked, hsince⟩
    exact ⟨rfl, hst₁, hmarked.trans hm, by rw [hsince hm, h0]⟩
  refine hint.bind ?_
  rintro marker _ s t ⟨rfl, hst, hm, h4⟩
  split
  · obtain ⟨t', ht', hback, -, -⟩ := hst.2.rewind hm (by rw [h4]; decide)
    have hrewind : Alike (fun _ _ s t => Scan.Follows failure s t) (Scan.FailAlike failure)
        (Scan.rewind s) (Scan.rewind t) := by
      simp only [Scan.rewind, Scan.onSource_eq, Source.rewind, ht']
      exact ⟨hst.1, hback⟩
    refine hrewind.bind fun _ _ s t hst => ?_
    exact (PlainHeader.parallel_decode failure).bind (fun h => .pure _) s t hst
  · exact (AuthenticatedHeader.parallel_afterMarker failure r).bind (fun h => .pure _) s t hst

/-- **The header of some bytes and the header at the beginning of a reader that delivers them** are
the same, the stream has consumed as many bytes as the header takes, and what it still delivers is
what stands behind it. -/
theorem alike_ofBytes (r : Resolver) {c : Bytes} {failure : Option TransportError} {reader : Reader}
    (hd : reader.Delivers c failure) (asked : List String) :
    Alike
      (fun found h asked' t =>
        h = found.1 ∧ t.asked = asked' ∧ t.source.consumed = found.2 ∧
          t.source.Delivers (c.drop found.2) failure)
      (fun e e' asked' t => e' = e.atEnd failure ∧ t.asked = asked')
      (ofBytes r c asked) (decode r ⟨StreamSource.ofReader reader, asked⟩) := by
  have h := parallel_decode failure r ⟨MemorySource.ofBytes c, asked⟩
    ⟨StreamSource.ofReader reader, asked⟩ ⟨rfl, Envelope.Follows.ofReader hd⟩
  rw [ofBytes]
  rcases h.outcome with ⟨a, b, s, t, hm, ht, hb, ha, hst⟩ | ⟨e, e', s, t, hm, ht, he, ha, -⟩
  · obtain ⟨-, w, ⟨hu, hp⟩, -⟩ := decode_eq_ok hm
    have hlen : s.source.position = w.length := by
      rw [hp]
      exact Nat.zero_add _
    have hc : c = w ++ s.source.unread := hu
    rw [hm, ht]
    refine ⟨hb, ha, hst.consumed, ?_⟩
    rw [hlen, hc, List.drop_left]
    exact hst.delivers
  · rw [hm, ht]
    exact ⟨he, ha⟩

end Envelope.Header

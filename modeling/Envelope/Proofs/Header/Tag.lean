/-
# The tag decides

The tag of an authenticated header is compared with the code of the bytes that were read, and these
are put together again piece by piece while they are read: the marker from its number, the name from
the bytes in front of the one that ends it, the nonce behind its length.  Whoever wrote the header
computed the tag of one string.  That the two strings are the same is what makes an unchanged header
acceptable; that the comparison is with *these* bytes, and the only one there is, is what makes it
mean something when they are changed.

So here the marker, the name, the byte that ends it and the length of the nonce are left as they
are, and everything behind them is replaced by other bytes of the same lengths (`replaced`).  The
bytes are always complete and always in the right form, and nothing is left to decide but the tag
(`tag_decides`): if it is the code of what stands before it, the header is the one with the new
nonce, and otherwise the failure is about the tag.
-/
import Envelope.Proofs.Header

namespace Envelope

namespace AuthenticatedHeader

/-! ## 1. Reading this layout alone -/

section

variable {σ : Type} [Source σ]

/-- Where this layout is expected, another marker is a failure. -/
theorem decode_eq (r : Resolver) :
    (decode r : Scan σ AuthenticatedHeader) =
      Scan.int32 >>= fun marker =>
        if marker ≠ authenticatedMarker then Scan.refuse (.versionMismatch marker)
        else afterMarker r := by
  unfold decode
  rw [probe_eq, bind_assoc]
  refine bind_congr fun marker => ?_
  split
  · rfl
  · rw [bind_assoc]
    exact bind_pure _

end

theorem parallel_decode (failure : Option TransportError) (r : Resolver) :
    Scan.Parallel failure (decode r : Scan MemorySource AuthenticatedHeader) (decode r) := by
  rw [decode_eq, decode_eq]
  exact .bind .int32 fun marker => .ite (.refuse (by simp)) (parallel_afterMarker failure r)

/-- Reading this layout alone comes to what reading either comes to. -/
theorem expects_decode {h : AuthenticatedHeader} {r : Resolver} {key : Key}
    (hn : new h.nonce h.keyName = .ok { h with resolver := none }) {asked : List String}
    (hk : r.answer asked h.keyName = some key) {tag : Bytes} (ht : tag.length = headerTagWidth) :
    Scan.Expects (decode r) asked (h.fieldsWith tag)
      (h.judged r key tag) (asked ++ [h.keyName]) := by
  have hm : Bytes.toInt32 (Bytes.ofInt32 authenticatedMarker) = authenticatedMarker := by decide
  rw [decode_eq]
  refine (Scan.Expects.int32 asked rfl).bind ?_
  rw [hm, if_neg (not_not.mpr rfl)]
  exact expects_afterMarker hn hk ht

/-! ## 2. A header with other bytes in it -/

/-- The bytes of an encoded header up to its nonce: the marker, the name, the byte that ends it and
the length of the nonce. -/
def opening (h : AuthenticatedHeader) (key : Key) : Bytes :=
  (h.encodeWith key).take (markerWidth + h.keyName.utf8ByteSize + 1 + 1)

/-- **An encoded header with other bytes in place of its nonce and its tag.** -/
def replaced (h : AuthenticatedHeader) (key : Key) (nonce tag : Bytes) : Bytes :=
  h.opening key ++ nonce ++ tag

/-- What stands before the nonce. -/
theorem opening_eq (h : AuthenticatedHeader) (key : Key) :
    h.opening key = Bytes.ofInt32 authenticatedMarker ++ Bytes.ofText h.keyName ++
      [keyNameEnd, UInt8.ofNat h.nonce.length] := by
  obtain ⟨front, hfront⟩ : ∃ front, front = Bytes.ofInt32 authenticatedMarker ++
      Bytes.ofText h.keyName ++ [keyNameEnd, UInt8.ofNat h.nonce.length] := ⟨_, rfl⟩
  have hwidth : front.length = markerWidth + h.keyName.utf8ByteSize + 1 + 1 := by
    rw [hfront]
    simp only [List.length_append, List.length_cons, List.length_nil, Bytes.ofInt32,
      Bytes.length_ofNatBE, Bytes.length_ofText, markerWidth]
  have hall : h.encodeWith key = front ++ (h.nonce ++ Hmac.code key.bytes h.covered) := by
    rw [encodeWith, covered, hfront]
    simp
  rw [opening, hall, ← hwidth, List.take_left, hfront]

/-- **What the tag covers is what stands before it**, with a nonce of the same length as well. -/
theorem opening_append {h : AuthenticatedHeader} {nonce : Bytes}
    (hn : nonce.length = h.nonce.length) (key : Key) :
    h.opening key ++ nonce = covered { h with nonce } := by
  rw [opening_eq, covered, hn]
  simp

/-- A header that is replaced by itself. -/
theorem replaced_self (h : AuthenticatedHeader) (key : Key) :
    h.replaced key h.nonce (Hmac.code key.bytes h.covered) = h.encodeWith key := by
  rw [replaced, opening_append rfl, encodeWith]

/-- What is replaced is made of the fields of the header with the new nonce. -/
theorem replaced_eq {h : AuthenticatedHeader} {nonce : Bytes} (hn : nonce.length = h.nonce.length)
    (key : Key) (tag : Bytes) :
    h.replaced key nonce tag = (fieldsWith { h with nonce } tag).flatten := by
  rw [replaced, opening_append hn, flatten_fieldsWith]

/-! ## 3. The verdict -/

/-- **What becomes of some bytes**: read as a header of either layout, and where only this layout is
expected; from memory, and from every reader that delivers them and then ends or fails. -/
structure Verdict (r : Resolver) (asked : List String) (bytes : Bytes)
    (outcome : Except Failure AuthenticatedHeader) (asked' : List String) : Prop where
  memory : Header.ofBytes r bytes asked =
    Scan.ended (outcome.map fun h => (.authenticated h, h.length)) asked'
  stream : ∀ (reader : Reader) (failure : Option TransportError), reader.Delivers bytes failure →
    ∃ t, Header.decode r ⟨StreamSource.ofReader reader, asked⟩ =
      Scan.ended (outcome.map .authenticated) t ∧ t.asked = asked'
  memoryAlone : ∀ s : ScanState MemorySource, s.asked = asked → s.source.unread = bytes →
    ∃ s', decode r s = Scan.ended outcome s' ∧ s'.asked = asked'
  streamAlone : ∀ (reader : Reader) (failure : Option TransportError),
    reader.Delivers bytes failure →
      ∃ t, decode r ⟨StreamSource.ofReader reader, asked⟩ = Scan.ended outcome t ∧ t.asked = asked'

/-- A wrong tag is a failure that does not depend on how the stream ends. -/
theorem atEnd_of_judged {h : AuthenticatedHeader} {r : Resolver} {key : Key} {tag : Bytes}
    (failure : Option TransportError) {e : Failure} (he : h.judged r key tag = .error e) :
    e.atEnd failure = e := by
  unfold judged at he
  split at he
  · simp at he
  · obtain rfl := Except.error.inj he
    rfl

/-- The verdict on the fields of a header with some tag. -/
theorem verdict_of_fields {h : AuthenticatedHeader} {r : Resolver} {key : Key}
    (hb : Header.Built (.authenticated h)) {asked : List String}
    (hk : r.answer asked h.keyName = some key) {tag : Bytes} (ht : tag.length = headerTagWidth)
    (rest : Bytes) :
    Verdict r asked ((h.fieldsWith tag).flatten ++ rest) (h.judged r key tag)
      (asked ++ [h.keyName]) := by
  have heither := Header.expects_authenticated hb hk ht
  have halone := expects_decode hb hk ht
  constructor
  · have hwidth : (h.fieldsWith tag).flatten.length = h.length := by
      rw [← h.length_encodeWith key, encodeWith, flatten_fieldsWith, List.length_append,
        List.length_append, Hmac.length_code, ht]
      rfl
    rw [Header.ofBytes_of_expects heither rest, hwidth, judged]
    split <;> rfl
  · intro reader failure hd
    refine heither.complete_ofReader (Header.parallel_decode failure r) ?_ hd
    intro e he
    cases hj : h.judged r key tag with
    | ok h' => simp [hj, Except.map] at he
    | error e' =>
      rw [hj] at he
      obtain rfl := Except.error.inj he
      exact atEnd_of_judged failure hj
  · intro s ha hu
    obtain ⟨s', hs', -, ha'⟩ := halone.complete s rest ha hu
    exact ⟨s', hs', ha'⟩
  · intro reader failure hd
    exact halone.complete_ofReader (parallel_decode failure r)
      (fun _ => atEnd_of_judged failure) hd

/-- **The tag decides, and nothing else does.**  Let the nonce and the tag of an encoded header be
replaced by any bytes of the same lengths, with anything behind them.  For every resolver that finds
the key of the name, the bytes are a header exactly if the tag they carry is the code of all that
stands before it, and then it is the header with the new nonce; otherwise the failure is about the
tag.  The name is asked for once, either way.

So a header is refused in which nothing but the tag was changed. -/
theorem tag_decides {h : AuthenticatedHeader} (hb : Header.Built (.authenticated h)) {r : Resolver}
    {key : Key} {asked : List String} (hk : r.answer asked h.keyName = some key)
    {nonce tag : Bytes} (hn : nonce.length = h.nonce.length) (ht : tag.length = headerTagWidth)
    (rest : Bytes) :
    (tag = Hmac.code key.bytes (h.opening key ++ nonce) →
      Verdict r asked (h.replaced key nonce tag ++ rest)
        (.ok { nonce, keyName := h.keyName, resolver := some r }) (asked ++ [h.keyName])) ∧
    (tag ≠ Hmac.code key.bytes (h.opening key ++ nonce) →
      Verdict r asked (h.replaced key nonce tag ++ rest) (.error (.authentication .headerTag))
        (asked ++ [h.keyName])) ∧
    (h.replaced key h.nonce tag ≠ h.encodeWith key →
      Verdict r asked (h.replaced key h.nonce tag ++ rest) (.error (.authentication .headerTag))
        (asked ++ [h.keyName])) := by
  have hreplaced : ∀ {nonce : Bytes}, nonce.length = h.nonce.length →
      Verdict r asked (h.replaced key nonce tag ++ rest) (judged { h with nonce } r key tag)
        (asked ++ [h.keyName]) := by
    intro nonce hn
    have hbuilt : Header.Built (.authenticated { h with nonce }) := by
      obtain ⟨-, hcheck, hshort⟩ := new_eq_ok.mp hb
      exact new_eq_ok.mpr ⟨rfl, hcheck, hn.trans_le hshort⟩
    rw [replaced_eq hn]
    exact verdict_of_fields hbuilt hk ht rest
  refine ⟨?_, ?_, ?_⟩
  · intro htag
    have hverdict := hreplaced hn
    rw [opening_append hn] at htag
    rwa [judged, if_pos htag.symm] at hverdict
  · intro htag
    have hverdict := hreplaced hn
    rw [opening_append hn] at htag
    rwa [judged, if_neg (Ne.symm htag)] at hverdict
  · intro hchanged
    have hverdict := hreplaced rfl
    have htag : Hmac.code key.bytes h.covered ≠ tag := by
      rintro rfl
      exact hchanged (h.replaced_self key)
    rwa [judged, if_neg htag] at hverdict

/-- A header with another nonce: it is accepted with the code of the changed bytes, and refused with
a tag that differs from it in every byte. -/
theorem tag_decides_name_k :
    ∃ (h : AuthenticatedHeader) (r : Resolver) (code : Bytes), h.nonce = [5] ∧ h.keyName = "k" ∧
      code = Hmac.code [7] (h.opening ⟨[7]⟩ ++ [6]) ∧
      Verdict r [] (h.replaced ⟨[7]⟩ [6] code ++ [1, 2, 3])
        (.ok { nonce := [6], keyName := "k", resolver := some r }) ["k"] ∧
      Verdict r [] (h.replaced ⟨[7]⟩ [6] (code.map (· + 1)) ++ [1, 2, 3])
        (.error (.authentication .headerTag)) ["k"] := by
  obtain ⟨h, hh⟩ : ∃ h : AuthenticatedHeader,
      h = { nonce := [5], keyName := "k", resolver := none } := ⟨_, rfl⟩
  obtain ⟨code, hcode⟩ : ∃ code, code = Hmac.code [7] (h.opening ⟨[7]⟩ ++ [6]) := ⟨_, rfl⟩
  have hb : Header.Built (.authenticated h) := by
    rw [hh]
    exact new_eq_ok.mpr ⟨rfl, rfl, by decide⟩
  have hk : (Resolver.ofFunction fun _ => some ⟨[7]⟩).answer [] h.keyName = some ⟨[7]⟩ := rfl
  have hn : ([6] : Bytes).length = h.nonce.length := by rw [hh]; rfl
  have hwidth : code.length = headerTagWidth := by rw [hcode]; exact Hmac.length_code _ _
  have hother : code.map (· + 1) ≠ code := by
    intro hsame
    cases hbytes : code with
    | nil => simp [hbytes, headerTagWidth] at hwidth
    | cons b more => simp [hbytes] at hsame
  have hname : h.keyName = "k" := by rw [hh]
  obtain ⟨haccepted, -, -⟩ := tag_decides hb hk hn hwidth [1, 2, 3]
  obtain ⟨-, hrefused, -⟩ := tag_decides hb hk hn ((List.length_map _).trans hwidth) [1, 2, 3]
  rw [hname] at haccepted hrefused
  refine ⟨h, _, code, by rw [hh], hname, hcode, haccepted hcode, hrefused ?_⟩
  rw [← hcode]
  exact hother

end AuthenticatedHeader

end Envelope

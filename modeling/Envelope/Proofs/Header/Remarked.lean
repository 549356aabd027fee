/-
# No header of one layout becomes one of the other

The first four bytes say in which layout a header is read, and nothing protects them: a plain header
is not authenticated at all, and whoever overwrites the marker of an authenticated one has taken it
out of reach of its own tag.  What stands behind the four bytes was written for the other layout
then, and this module says that it is refused there, in both directions, before any key is asked for
(`remarked_refused`).

* Behind the marker stands a key name, and its first byte is not the one that ends a name.  Where
  the plain layout expects the length of the nonce it is the most significant byte, so the length is
  negative or above 2 ^ 24, and no nonce is that long (`refused_of_nonce_length`).
* Behind the total length of a plain header stands the length of a nonce, which is short, so its
  most significant byte is zero.  Where the authenticated layout expects the key name this is the
  byte that ends it, and the name is empty (`afterMarker_of_end`).

Both sides lean on bounds that are far apart from each other in the format: a longer nonce, or a key
name that may be empty or contain the byte that ends it, would open the way.
-/
import Envelope.Proofs.Header.PrefixFree
import Envelope.Proofs.Header.Stream

namespace Envelope

variable {s : ScanState MemorySource} {rest : Bytes}

/-! ## 1. What is refused in each layout -/

/-- **A nonce length that no nonce has** is refused in the plain layout, if the total length is not
refused before it. -/
theorem PlainHeader.refused_of_nonce_length {total length : Bytes} (htotal : total.length = 4)
    (hlength : length.length = 4) (hu : s.source.unread = total ++ (length ++ rest))
    (hlong : Bytes.toInt32 length < 0 ∨ maxNonce < Bytes.toInt32 length) :
    ∃ e s', decode s = .error (.encoding e) s' ∧ s'.asked = s.asked ∧
      (e = .negativeLength (Bytes.toInt32 total) ∨
        e = .invalidNonceLength (Bytes.toInt32 length)) := by
  rw [decode_eq, bind_of_ok (Scan.int32_append hu htotal)]
  by_cases hnegative : Bytes.toInt32 total < 0
  · rw [if_pos hnegative]
    exact ⟨_, _, rfl, rfl, Or.inl rfl⟩
  · have hu₂ : (Scan.advance 4 s).source.unread = length ++ rest := Scan.unread_advance hu htotal
    rw [if_neg hnegative, bind_of_ok (Scan.int32_append hu₂ hlength), if_pos (by omega)]
    exact ⟨_, _, rfl, rfl, Or.inr rfl⟩

/-- **A key name that ends where it begins** is refused in the authenticated layout. -/
theorem AuthenticatedHeader.afterMarker_of_end (r : Resolver)
    (hu : s.source.unread = keyNameEnd :: rest) :
    afterMarker r s = .error (.encoding .missingKeyName) (Scan.advance 1 s) := by
  have hname : nameBytes maxKeyName s = .ok [] (Scan.advance 1 s) := by
    rw [maxKeyName, nameBytes_succ, bind_of_ok (Scan.byte_append hu), if_pos rfl]
    rfl
  have hrefused : decodeKeyName s = .error (.encoding .missingKeyName) (Scan.advance 1 s) := by
    rw [decodeKeyName_eq, bind_of_ok hname, if_pos rfl]
    rfl
  rw [afterMarker, bind_of_error hrefused]

/-! ## 2. What stands behind the first four bytes -/

/-- Behind the marker four bytes follow that are no nonce length: the first of them belongs to the
key name. -/
theorem AuthenticatedHeader.exists_behind_marker {a : AuthenticatedHeader}
    (hb : Header.Built (.authenticated a)) (key : Key) :
    ∃ length more : Bytes, (a.encodeWith key).drop markerWidth = length ++ more ∧
      length.length = 4 ∧ (Bytes.toInt32 length < 0 ∨ maxNonce < Bytes.toInt32 length) := by
  obtain ⟨-, hne, -, hmem⟩ := hb.bounded
  have hfields : (a.encodeWith key).drop markerWidth =
      Bytes.ofText a.keyName ++ keyNameEnd :: UInt8.ofNat a.nonce.length ::
        (a.nonce ++ Hmac.code key.bytes a.covered) := by
    have h := encodeWith_fields a key []
    rw [List.append_nil, List.append_nil] at h
    rw [h]
    exact List.drop_left' rfl
  cases hname : Bytes.ofText a.keyName with
  | nil =>
    have hsize := Bytes.length_ofText a.keyName
    rw [hname, List.length_nil] at hsize
    exact absurd (String.utf8ByteSize_eq_zero_iff.mp hsize.symm) hne
  | cons b name =>
    rw [hname, List.mem_cons, not_or] at hmem
    rw [hname, List.cons_append] at hfields
    obtain ⟨tail, htail⟩ : ∃ tail, tail = name ++ keyNameEnd :: UInt8.ofNat a.nonce.length ::
        (a.nonce ++ Hmac.code key.bytes a.covered) := ⟨_, rfl⟩
    -- the tag alone is longer than the three bytes that are needed
    have hlong : 3 ≤ tail.length := by
      have hcode := Hmac.length_code key.bytes a.covered
      rw [htail, List.length_append, List.length_cons, List.length_cons, List.length_append]
      omega
    have hthree : (tail.take 3).length = 3 := by rw [List.length_take]; omega
    refine ⟨b :: tail.take 3, tail.drop 3, ?_, by rw [List.length_cons, hthree], ?_⟩
    · rw [hfields, ← htail, List.cons_append, List.take_append_drop]
    · have hmax : maxNonce = 255 := rfl
      have hnumber := Bytes.toInt32_of_head_ne_zero (Ne.symm hmem.1) hthree
      omega

/-- Behind the total length of a plain header follows a zero byte: the nonce is short. -/
theorem PlainHeader.exists_behind_total {h : PlainHeader} (hb : Header.Built (.plain h)) :
    ∃ more : Bytes, h.encode.drop markerWidth = keyNameEnd :: more := by
  obtain ⟨hshort, -⟩ : h.nonce.length ≤ maxNonce ∧ _ := hb.bounded
  have hmax : maxNonce = 255 := rfl
  have hzero : h.nonce.length / 256 ^ 3 = 0 := Nat.div_eq_of_lt (by omega)
  have hfields : h.encode.drop markerWidth =
      Bytes.ofNatBE 4 h.nonce.length ++ (h.nonce ++ keyNameFields h.keyName) := by
    rw [encode, List.append_assoc, List.append_assoc]
    exact List.drop_left' (Bytes.length_ofNatBE 4 h.length)
  rw [Bytes.ofNatBE_succ 3, hzero] at hfields
  exact ⟨_, hfields⟩

/-! ## 3. Both directions -/

namespace Header

/-- **The header of some bytes is refused, and the resolver not asked**: in memory, and at the
beginning of every reader that delivers them, whether it ends behind them or fails. -/
def Refused (r : Resolver) (asked : List String) (c : Bytes) (e : HeaderError) : Prop :=
  ofBytes r c asked = .error (.encoding e) asked ∧
    ∀ (reader : Reader) (failure : Option TransportError), reader.Delivers c failure →
      ∃ t, decode r ⟨StreamSource.ofReader reader, asked⟩ = .error (.encoding e) t ∧
        t.asked = asked

/-- What is refused in memory is refused on every stream, if no bytes are missing. -/
theorem Refused.of_ofBytes {r : Resolver} {asked : List String} {c : Bytes} {e : HeaderError}
    (h : ofBytes r c asked = .error (.encoding e) asked) (he : ∀ wanted, e ≠ .truncated wanted) :
    Refused r asked c e := by
  refine ⟨h, ?_⟩
  intro reader failure hr
  have halike := alike_ofBytes r hr asked
  rw [h] at halike
  obtain ⟨e', t, hstream, rfl, hasked⟩ := halike.of_error
  refine ⟨t, ?_, hasked⟩
  rw [hstream, atEnd_of_ne fun wanted heq => he wanted (Failure.encoding.inj heq)]

/-- What becomes of bytes that do not begin with the marker, when the plain layout refuses them. -/
theorem refused_of_plain {r : Resolver} {asked : List String} {tag length : Bytes}
    (htag : tag.length = 4) (hforeign : tag ≠ Bytes.ofInt32 authenticatedMarker)
    (hlength : length.length = 4)
    (hlong : Bytes.toInt32 length < 0 ∨ maxNonce < Bytes.toInt32 length) (more : Bytes) :
    ∃ e, (e = .negativeLength (Bytes.toInt32 tag) ∨
        e = .invalidNonceLength (Bytes.toInt32 length)) ∧
      Refused r asked (tag ++ (length ++ more)) e := by
  obtain ⟨s, hs⟩ : ∃ s : ScanState MemorySource,
      s = ⟨.ofBytes (tag ++ (length ++ more)), asked⟩ := ⟨_, rfl⟩
  have hu : s.source.unread = tag ++ (length ++ more) := by rw [hs]; rfl
  have hmarker : Bytes.toInt32 tag ≠ authenticatedMarker := by
    intro h
    rw [← h, Bytes.ofInt32_toInt32 htag] at hforeign
    exact hforeign rfl
  obtain ⟨e, s', hdecode, hasked, he⟩ :=
    PlainHeader.refused_of_nonce_length (s := Scan.remember s) htag hlength hu hlong
  have hasked : s'.asked = asked := by rw [hasked, hs]; rfl
  refine ⟨e, he, Refused.of_ofBytes ?_ ?_⟩
  · rw [ofBytes]
    simp only [← hs]
    rw [decode_foreign hu htag hmarker, bind_of_error hdecode]
    simp only [hasked]
  · rcases he with rfl | rfl <;> simp

/-- What becomes of bytes that begin with the marker, when no key name follows. -/
theorem refused_of_marked (r : Resolver) (asked : List String) (more : Bytes) :
    Refused r asked (Bytes.ofInt32 authenticatedMarker ++ keyNameEnd :: more)
      .missingKeyName := by
  obtain ⟨s, hs⟩ : ∃ s : ScanState MemorySource,
      s = ⟨.ofBytes (Bytes.ofInt32 authenticatedMarker ++ keyNameEnd :: more), asked⟩ := ⟨_, rfl⟩
  have hu : s.source.unread = Bytes.ofInt32 authenticatedMarker ++ keyNameEnd :: more := by
    rw [hs]
    rfl
  have hu₁ : (Scan.advance 4 (Scan.remember s)).source.unread = keyNameEnd :: more :=
    Scan.unread_advance (s := Scan.remember s) hu rfl
  refine Refused.of_ofBytes ?_ (by simp)
  rw [ofBytes]
  simp only [← hs]
  rw [decode_marked hu, bind_of_error (AuthenticatedHeader.afterMarker_of_end r hu₁)]
  simp only [hs]
  rfl

/-- **A header whose first four bytes are rewritten is not read in the other layout**, whatever
stands behind it and whatever resolver is at hand, which is not asked.

* With anything but the marker in its place, what is left of an authenticated header is refused as a
  plain one: for a negative total length, or for the length of its nonce.
* With the marker in front, what is left of a plain header is refused as an authenticated one, for
  want of a key name. -/
theorem remarked_refused (r : Resolver) (asked : List String) (rest : Bytes) :
    (∀ (a : AuthenticatedHeader) (key : Key) (tag : Bytes), Built (.authenticated a) →
      tag.length = 4 → tag ≠ Bytes.ofInt32 authenticatedMarker →
        ∃ e, (e = .negativeLength (Bytes.toInt32 tag) ∨
            ∃ length, e = .invalidNonceLength length) ∧
          Refused r asked (tag ++ (a.encodeWith key).drop markerWidth ++ rest) e) ∧
    ∀ h : PlainHeader, Built (.plain h) →
      Refused r asked
        (Bytes.ofInt32 authenticatedMarker ++ h.encode.drop markerWidth ++ rest)
        .missingKeyName := by
  constructor
  · intro a key tag hb htag hforeign
    obtain ⟨length, more, hbehind, hlength, hlong⟩ :=
      AuthenticatedHeader.exists_behind_marker hb key
    obtain ⟨e, he, hrefused⟩ := refused_of_plain htag hforeign hlength hlong (more ++ rest)
    refine ⟨e, he.imp_right fun h => ⟨_, h⟩, ?_⟩
    rw [hbehind, List.append_assoc, List.append_assoc]
    exact hrefused
  · intro h hb
    obtain ⟨more, hbehind⟩ := PlainHeader.exists_behind_total hb
    rw [hbehind, List.append_assoc, List.cons_append]
    exact refused_of_marked r asked (more ++ rest)

/-- The shortest key name, a total length that would fit and a resolver that answers everything: the
authenticated header is still not a plain one. -/
theorem remarked_refused_name_k :
    ∃ e, (e = .negativeLength 60 ∨ ∃ length, e = .invalidNonceLength length) ∧
      Refused (.fixed ⟨[7]⟩) []
        ([0, 0, 0, 60] ++
          (AuthenticatedHeader.encodeWith ⟨[5], "k", none⟩ ⟨[7]⟩).drop markerWidth ++
          [1, 2, 3]) e := by
  have hb : Built (.authenticated ⟨[5], "k", none⟩) :=
    AuthenticatedHeader.new_eq_ok.mpr ⟨rfl, rfl, by decide⟩
  have htag : Bytes.toInt32 [0, 0, 0, 60] = 60 := by decide
  rw [← htag]
  exact (remarked_refused (.fixed ⟨[7]⟩) [] [1, 2, 3]).1 ⟨[5], "k", none⟩ ⟨[7]⟩ [0, 0, 0, 60] hb rfl
    (by decide)

end Header

end Envelope

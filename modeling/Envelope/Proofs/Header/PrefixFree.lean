/-
# No header is the beginning of another

A body follows its header without any mark between them, so a reader has to know from the header
alone where it ends.  Reading a header back from its encoding, whatever follows it, says that it
does (`ofBytes_encoding`): the reader stops exactly behind the header and has the same header,
whether the bytes behind it are a body, another header or nothing.

What follows from it is that the headers form a prefix code.  Two headers of different layouts, or
two plain ones, are told apart by reading the same bytes twice.  Two authenticated ones need an
argument of their own, since they may be written under different keys, and then neither can be read
with the other's: they are compared field by field, up to the byte that ends the name and from there
by the length of the nonce (`eq_of_encodeWith_append`).
-/
import Envelope.Proofs.Header

namespace Envelope

/-! ## 1. The bounds are all there is to a header -/

namespace Header

/-- **A constructor accepts what is within the bounds**, and nothing else. -/
theorem built_iff_bounded {h : Header} : h.Built ↔ h.Bounded := by
  constructor
  · intro hb
    exact hb.bounded
  · intro hb
    cases h with
    | plain h =>
      obtain ⟨hn, hk⟩ := hb
      exact PlainHeader.new_eq_ok.mpr ⟨rfl, hn, hk⟩
    | authenticated h =>
      obtain ⟨hn, hne, hl, hm⟩ := hb
      have hz : h.keyName.utf8ByteSize ≠ 0 := by
        intro hz
        exact hne (String.utf8ByteSize_eq_zero_iff.mp hz)
      have hcheck := AuthenticatedHeader.checkKeyName_eq_ok.mpr ⟨hz, hl, hm⟩
      exact AuthenticatedHeader.new_eq_ok.mpr ⟨rfl, hcheck, hn⟩

/-- **Two headers that say the same**, whatever resolver is attached to either. -/
structure Agrees (g h : Header) : Prop where
  version : g.version = h.version
  nonce : g.nonce = h.nonce
  keyName : g.keyName = h.keyName
  length : g.length = h.length

theorem Agrees.symm {g h : Header} (hs : g.Agrees h) : h.Agrees g :=
  ⟨hs.version.symm, hs.nonce.symm, hs.keyName.symm, hs.length.symm⟩

/-- Attaching a resolver changes nothing of what a header says. -/
theorem agrees_attach (r : Resolver) (h : Header) : (h.attach r).Agrees h := by
  cases h with
  | plain h => exact ⟨rfl, rfl, rfl, rfl⟩
  | authenticated h => exact ⟨rfl, rfl, rfl, rfl⟩

end Header

/-! ## 2. Two authenticated headers -/

namespace Bytes

/-- A text is determined by its UTF-8 form. -/
theorem ofText_inj {s t : String} (h : ofText s = ofText t) : s = t := by
  have hs := toText?_ofText s
  rw [h, toText?_ofText t] at hs
  exact (Option.some.inj hs).symm

/-- **What stands before the first byte of a kind** is determined by the whole, and so is what
stands behind it. -/
theorem append_cons_inj {x : UInt8} {a b s t : Bytes} (ha : x ∉ a) (hb : x ∉ b)
    (h : a ++ x :: s = b ++ x :: t) : a = b ∧ s = t := by
  induction a generalizing b with
  | nil =>
    cases b with
    | nil => exact ⟨rfl, (List.cons.inj h).2⟩
    | cons y b =>
      obtain ⟨rfl, -⟩ := List.cons.inj h
      exact absurd List.mem_cons_self hb
  | cons y a ih =>
    rw [List.mem_cons, not_or] at ha
    cases b with
    | nil =>
      obtain ⟨hy, -⟩ := List.cons.inj h
      exact absurd hy.symm ha.1
    | cons z b =>
      rw [List.mem_cons, not_or] at hb
      obtain ⟨rfl, htail⟩ := List.cons.inj h
      obtain ⟨rfl, rfl⟩ := ih ha.2 hb.2 htail
      exact ⟨rfl, rfl⟩

end Bytes

namespace AuthenticatedHeader

/-- The fields of a header under a key, up to the tag. -/
theorem encodeWith_fields (h : AuthenticatedHeader) (key : Key) (rest : Bytes) :
    h.encodeWith key ++ rest =
      Bytes.ofInt32 authenticatedMarker ++ (Bytes.ofText h.keyName ++
        keyNameEnd :: UInt8.ofNat h.nonce.length ::
          (h.nonce ++ (Hmac.code key.bytes h.covered ++ rest))) := by
  rw [encodeWith, covered]
  simp only [List.append_assoc, List.cons_append]

/-- A nonce within the bounds has its length in one byte. -/
theorem length_of_ofNat {m n : Bytes} (hm : m.length ≤ maxNonce) (hn : n.length ≤ maxNonce)
    (h : UInt8.ofNat m.length = UInt8.ofNat n.length) : m.length = n.length := by
  have hmax : maxNonce = 255 := rfl
  have hnat := congrArg UInt8.toNat h
  rw [UInt8.toNat_ofNat', UInt8.toNat_ofNat'] at hnat
  omega

/-- **An authenticated header is not the beginning of another one**, under whatever keys the two
were written. -/
theorem eq_of_encodeWith_append {g h : AuthenticatedHeader} {key key' : Key} {rest : Bytes}
    (hh : Header.Built (.authenticated h)) (hg : Header.Built (.authenticated g))
    (heq : h.encodeWith key ++ rest = g.encodeWith key') :
    rest = [] ∧ g.nonce = h.nonce ∧ g.keyName = h.keyName := by
  obtain ⟨hnh, -, -, hmh⟩ := hh.bounded
  obtain ⟨hng, -, -, hmg⟩ := hg.bounded
  rw [← List.append_nil (g.encodeWith key'), encodeWith_fields, encodeWith_fields] at heq
  have hfields := List.append_cancel_left heq
  -- neither name contains the byte that ends it, so the first such byte ends both
  obtain ⟨hname, hfields⟩ := Bytes.append_cons_inj hmg hmh hfields.symm
  obtain ⟨hwidth, hfields⟩ := List.cons.inj hfields
  have hlength := length_of_ofNat hng hnh hwidth
  obtain ⟨hnonce, htag⟩ := List.append_inj hfields hlength
  have hcodes : (Hmac.code key'.bytes g.covered).length =
      (Hmac.code key.bytes h.covered).length := by simp
  obtain ⟨-, hrest⟩ := List.append_inj htag hcodes
  exact ⟨hrest.symm, hnonce, Bytes.ofText_inj hname⟩

end AuthenticatedHeader

/-! ## 3. Any two headers -/

namespace Header

/-- **No header is the beginning of another one**: what is written behind a header is nothing if the
two together are a header, and then they are the same header. -/
theorem agrees_of_encodeWith_append {g h : Header} {key key' : Key} {rest : Bytes} (hh : h.Built)
    (hg : g.Built) (heq : h.encodeWith key ++ rest = g.encodeWith key') :
    rest = [] ∧ g.Agrees h := by
  cases h with
  | plain h =>
    -- the bytes are read twice, with a resolver that has the key of the second header
    have hread := ofBytes_plain hh (.fixed key') [] rest
    have heq : h.encode ++ rest = g.encodeWith key' ++ [] := by rw [List.append_nil]; exact heq
    cases g with
    | plain g =>
      have hread' := ofBytes_plain hg (.fixed key') [] []
      rw [heq] at hread
      obtain ⟨hsame, -⟩ := EStateM.Result.ok.inj (hread'.symm.trans hread)
      obtain ⟨hsame, -⟩ := Prod.mk.inj hsame
      obtain rfl := Header.plain.inj hsame
      rw [List.append_nil] at heq
      exact ⟨List.append_right_eq_self.mp heq, ⟨rfl, rfl, rfl, rfl⟩⟩
    | authenticated g =>
      have hkey : (Resolver.fixed key').answer [] g.keyName = some key' := rfl
      have hread' := ofBytes_authenticated hg hkey []
      rw [heq] at hread
      have hsame := hread'.symm.trans hread
      simp at hsame
  | authenticated h =>
    have hkey : (Resolver.fixed key).answer [] h.keyName = some key := rfl
    have hread := ofBytes_authenticated hh hkey rest
    cases g with
    | plain g =>
      have hread' := ofBytes_plain hg (.fixed key) [] []
      have heq : h.encodeWith key ++ rest = g.encode ++ [] := by rw [List.append_nil]; exact heq
      rw [heq] at hread
      have hsame := hread'.symm.trans hread
      simp at hsame
    | authenticated g =>
      obtain ⟨hrest, hnonce, hname⟩ :=
        AuthenticatedHeader.eq_of_encodeWith_append hh hg heq
      have hlength : g.length = h.length := by
        rw [AuthenticatedHeader.length, AuthenticatedHeader.length, hnonce, hname]
      exact ⟨hrest, ⟨rfl, hnonce, congrArg some hname, hlength⟩⟩

/-- **At most one header stands at the beginning of some bytes**, whatever keys are tried. -/
theorem agrees_of_prefix {g h : Header} {key key' : Key} {c : Bytes} (hh : h.Built) (hg : g.Built)
    (hc : h.encodeWith key <+: c) (hc' : g.encodeWith key' <+: c) :
    g.encodeWith key' = h.encodeWith key ∧ g.Agrees h := by
  rcases List.prefix_or_prefix_of_prefix hc hc' with ⟨rest, heq⟩ | ⟨rest, heq⟩
  · obtain ⟨rfl, hsame⟩ := agrees_of_encodeWith_append hh hg heq
    rw [List.append_nil] at heq
    exact ⟨heq.symm, hsame⟩
  · obtain ⟨rfl, hsame⟩ := agrees_of_encodeWith_append hg hh heq
    rw [List.append_nil] at heq
    exact ⟨heq, hsame.symm⟩

/-! ## 4. Headers in front of anything -/

/-- **A header is read back from its encoding, whatever stands behind it, and is not the beginning
of another one.**  Every header within the bounds of the format can be built.  Reading its encoding
with any bytes behind it takes exactly the encoding and gives a header that says the same: in the
same layout, with every resolver if it is plain, and with every resolver that finds the key it was
written under if it is authenticated.  And if the encoding with some bytes behind it is the encoding
of any header, under any key, then there are no such bytes and the two headers say the same. -/
theorem ofBytes_encoding {h : Header} (hb : h.Bounded) (key : Key) (rest : Bytes) :
    h.Built ∧
    (∀ (r : Resolver) (asked : List String),
      (∀ a, h = .authenticated a → r.answer asked a.keyName = some key) →
        ∃ h' asked', h'.Agrees h ∧
          ofBytes r (h.encodeWith key ++ rest) asked =
            .ok (h', (h.encodeWith key).length) asked') ∧
    ∀ (g : Header) (key' : Key), g.Built → h.encodeWith key ++ rest = g.encodeWith key' →
      rest = [] ∧ g.Agrees h := by
  have hbuilt := built_iff_bounded.mpr hb
  refine ⟨hbuilt, ?_, ?_⟩
  · intro r asked hk
    obtain ⟨asked', hread⟩ := ofBytes_encodeWith hbuilt hk rest
    refine ⟨h.attach r, asked', agrees_attach r h, ?_⟩
    rw [h.length_encodeWith key]
    exact hread
  · intro g key' hg heq
    exact agrees_of_encodeWith_append hbuilt hg heq

/-- A plain header whose name is the one character that ends a name in the other layout, in front of
the marker of the other layout: it is read back, as a plain one. -/
theorem ofBytes_encoding_nul_name :
    ∃ h' asked', h'.version = "v1" ∧ h'.nonce = [5] ∧ h'.keyName = some "\x00" ∧
      ofBytes (.ofFunction fun _ => none)
        (encodeWith ⟨[]⟩ (.plain { nonce := [5], keyName := some "\x00" }) ++
          [0xff, 0xff, 0xff, 0xfe]) [] = .ok (h', 14) asked' := by
  have hb : Bounded (.plain { nonce := [5], keyName := some "\x00" }) := by
    constructor
    · decide
    · rintro _ ⟨rfl⟩
      decide
  obtain ⟨-, hread, -⟩ := ofBytes_encoding hb ⟨[]⟩ [0xff, 0xff, 0xff, 0xfe]
  obtain ⟨h', asked', hsame, hread⟩ := hread (.ofFunction fun _ => none) [] (by simp)
  exact ⟨h', asked', hsame.version, hsame.nonce, hsame.keyName, hread⟩

end Header

end Envelope

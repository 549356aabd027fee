/-
# Headers that are cut off

A header that is not all there is reported as such, whatever of it is missing: no beginning of a
header is a header, and none is at fault for anything else.  The failure also says how many bytes
would have completed the field that is cut, which is all a reader can know at that point: the
lengths of the fields behind it may not have been read.

The count is about *fields*, so the fields of either layout are listed with their widths (`widths`).
In an authenticated header every byte of the name is a field, since the name is read byte by byte
until it ends.  A field may be empty, a nonce for instance, and then it is never the one that is cut
(`truncated_of_take`).
-/
import Envelope.Proofs.Header

namespace Envelope

namespace Header

/-- **The widths of the fields**, in their order.  A plain header has a total length, the length of
its nonce, the nonce, and if it carries a name, the length of the name and the name.  An
authenticated one has the marker, the bytes of its name and the one that ends it, the length of its
nonce, the nonce and the tag. -/
def widths : Header → List Nat
  | .plain h =>
    [markerWidth, 4, h.nonce.length] ++
      match h.keyName with
      | none => []
      | some name => [keyNameLengthWidth, name.utf8ByteSize]
  | .authenticated h =>
    markerWidth :: List.replicate (h.keyName.utf8ByteSize + 1) 1 ++
      [1, h.nonce.length, headerTagWidth]

/-- The fields have these widths. -/
theorem map_length_fields (key : Key) (h : Header) : (h.fields key).map List.length = h.widths := by
  cases h with
  | plain h =>
    rcases h with ⟨nonce, _ | name⟩
    · rfl
    · simp [fields, PlainHeader.fields, PlainHeader.nameFields, widths, markerWidth,
        keyNameLengthWidth]
  | authenticated h =>
    have hname : ((Bytes.ofText h.keyName).map ([·])).map List.length =
        List.replicate h.keyName.utf8ByteSize 1 := by
      rw [List.map_map, ← Bytes.length_ofText]
      exact List.map_const'
    rw [fields, AuthenticatedHeader.fieldsWith, AuthenticatedHeader.fieldsBehind, List.map_cons,
      List.map_append, hname, widths, List.replicate_succ']
    simp only [List.map_cons, List.map_nil, Hmac.length_code, List.append_assoc, List.cons_append,
      List.nil_append]
    rfl

/-- **What reading a header comes to**, if it is all there and if it is cut.  The key it is tagged
with need not be the one its name stands for. -/
theorem exists_expects {h : Header} (hb : h.Built) (key : Key) {r : Resolver}
    {asked : List String}
    (hk : ∀ a, h = .authenticated a → ∃ found, r.answer asked a.keyName = some found) :
    ∃ outcome asked', Scan.Expects (decode r) asked (h.fields key) outcome asked' := by
  cases h with
  | plain h => exact ⟨_, _, expects_plain hb r asked⟩
  | authenticated h =>
    obtain ⟨found, hfound⟩ := hk h rfl
    exact ⟨_, _, expects_authenticated hb hfound (Hmac.length_code key.bytes h.covered)⟩

/-- **A header that is cut off is reported as truncated**, wherever it is cut, and with the number
of bytes that are missing from the field it is cut in: the first one that is not complete.  This is
so in memory and on every reader that delivers what there is and then ends, however it cuts the
bytes and however often it is interrupted.  The name of an authenticated header has to have a key,
not necessarily the right one. -/
theorem truncated_of_take {h : Header} (hb : h.Built) (key : Key) {r : Resolver}
    {asked : List String}
    (hk : ∀ a, h = .authenticated a → ∃ found, r.answer asked a.keyName = some found) {k : Nat}
    (hcut : k < (h.encodeWith key).length) :
    ∃ before width after, h.widths = before ++ width :: after ∧
      before.sum ≤ k ∧ k < before.sum + width ∧
      (∃ asked', ofBytes r ((h.encodeWith key).take k) asked =
        .error (.truncated (before.sum + width - k)) asked') ∧
      ∀ reader : Reader, reader.Delivers ((h.encodeWith key).take k) none →
        ∃ t, decode r ⟨StreamSource.ofReader reader, asked⟩ =
          .error (.truncated (before.sum + width - k)) t := by
  obtain ⟨outcome, asked', he⟩ := exists_expects hb key hk
  rw [← h.flatten_fields key] at hcut ⊢
  obtain ⟨before, field, after, hfields, hle, hlt, hmissing⟩ := missing_cut hcut
  refine ⟨before.map List.length, field.length, after.map List.length, ?_⟩
  rw [← List.length_flatten, ← hmissing]
  refine ⟨?_, hle, hlt, ofBytes_of_cut he hcut, ?_⟩
  · rw [← map_length_fields key, hfields, List.map_append, List.map_cons]
  · intro reader hd
    exact he.cut_ofReader (parallel_decode none r) hcut hd

/-- Two bytes of an authenticated header, from memory and from a reader that hands them out one at a
time and is interrupted before the second: two are missing from the marker. -/
theorem truncated_of_take_two_bytes :
    ∃ (h : Header) (r : Resolver) (reader : Reader) (t : ScanState StreamSource)
      (asked' : List String), h.keyName = some "k" ∧
      reader.Delivers ((h.encodeWith ⟨[7]⟩).take 2) none ∧
      ofBytes r ((h.encodeWith ⟨[7]⟩).take 2) [] = .error (.truncated 2) asked' ∧
      decode r ⟨StreamSource.ofReader reader, []⟩ = .error (.truncated 2) t := by
  obtain ⟨h, hh⟩ : ∃ h : Header,
      h = .authenticated { nonce := [], keyName := "k", resolver := none } := ⟨_, rfl⟩
  have hb : h.Built := by
    rw [hh]
    exact AuthenticatedHeader.new_eq_ok.mpr ⟨rfl, rfl, by decide⟩
  have hk : ∀ a, h = .authenticated a →
      ∃ found, (Resolver.fixed ⟨[8]⟩).answer [] a.keyName = some found := fun _ _ => ⟨_, rfl⟩
  have hcut : 2 < (h.encodeWith ⟨[7]⟩).length := by
    rw [h.length_encodeWith, hh]
    decide
  have hd := Reader.delivers_paced ((h.encodeWith ⟨[7]⟩).take 2) [1] (by decide : ∀ n ∈ [1], 0 < n)
  obtain ⟨before, width, after, hwidths, hle, hlt, ⟨asked', hmemory⟩, hstream⟩ :=
    truncated_of_take hb ⟨[7]⟩ hk hcut
  obtain ⟨t, ht⟩ := hstream _ hd
  -- the first field is longer than what there is, so the cut is in it
  have hwanted : before.sum + width - 2 = 2 := by
    rw [hh] at hwidths
    cases before with
    | nil =>
      obtain ⟨rfl, -⟩ := List.cons.inj hwidths
      rfl
    | cons first before =>
      obtain ⟨rfl, -⟩ := List.cons.inj hwidths
      simp only [List.sum_cons, markerWidth] at hle
      omega
  rw [hwanted] at hmemory ht
  exact ⟨h, _, _, t, asked', by rw [hh]; rfl, hd, hmemory, ht⟩

end Header

end Envelope

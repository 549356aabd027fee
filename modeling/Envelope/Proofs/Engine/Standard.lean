/-
# The engine is cipher block chaining as the textbook has it

An engine that takes its message in pieces keeps what it cannot give out yet, holds the last block
back while deciphering and pads by hand.  A textbook does none of this: it writes the message and
its padding as blocks `P₁ … P_q`, sets `C₀` to the nonce and `C_i` to the encipherment of `P_i`
combined with `C_{i-1}`.  The two are the same, however the message is cut (`standard_of_keyed`),
and where a body is not of this form the engine says exactly what is wrong with it.

* `Chained` and `Unchained` are the textbook's equations, one for every block.  They are what the
  recursion over blocks computes (`chained_iff`, `unchained_iff`).
* `Padding.Ends` is the textbook's padding, on the whole of what a body deciphers to.  The engine
  looks at the last block only, which is enough, since no padding is longer (`strip?_append_block`).
-/
import Envelope.Proofs.Engine.Canonical
import Envelope.Proofs.Engine.Pieces

namespace Envelope

/-! ## 1. Padding -/

namespace Padding

/-- **The bytes end in `r` bytes of value `r`**, with `1 ≤ r ≤ 16`. -/
structure Ends (r : Nat) (bytes : Bytes) : Prop where
  pos : 1 ≤ r
  le : r ≤ 16
  suffix : List.replicate r (UInt8.ofNat r) <:+ bytes

/-- **Padding is taken off where there is some**, and as much of it as it says. -/
theorem strip?_eq_some {padded plain : Bytes} :
    strip? padded = some plain ↔
      ∃ r, Ends r padded ∧ plain = padded.take (padded.length - r) := by
  constructor
  · intro h
    simp only [strip?] at h
    split at h
    · rename_i hvalid
      obtain ⟨hpos, hle, -, hlast⟩ := hvalid
      obtain rfl := Option.some.inj h
      exact ⟨_, ⟨hpos, hle, hlast ▸ List.drop_suffix _ _⟩, rfl⟩
    · simp at h
  · rintro ⟨r, ⟨hpos, hle, m, rfl⟩, rfl⟩
    have hafter : List.replicate r (UInt8.ofNat r) = after (16 - r) := by
      have hvalue : 16 - (16 - r) % 16 = r := by omega
      rw [after, hvalue]
    rw [hafter, strip?_append, ← hafter, List.length_append, List.length_replicate,
      Nat.add_sub_cancel, List.take_left]

theorem strip?_eq_none {padded : Bytes} : strip? padded = none ↔ ∀ r, ¬Ends r padded := by
  rw [Option.eq_none_iff_forall_ne_some]
  constructor
  · intro h r hr
    exact h _ (strip?_eq_some.mpr ⟨r, hr, rfl⟩)
  · intro h plain hplain
    obtain ⟨r, hr, -⟩ := strip?_eq_some.mp hplain
    exact h r hr

/-- What ends in padding does so in its last sixteen bytes. -/
theorem ends_append_block {r : Nat} {front block : Bytes} (hb : block.length = 16) :
    Ends r (front ++ block) ↔ Ends r block := by
  constructor
  · rintro ⟨hpos, hle, hsuffix⟩
    refine ⟨hpos, hle, List.suffix_of_suffix_length_le hsuffix (List.suffix_append _ _) ?_⟩
    rw [List.length_replicate, hb]
    exact hle
  · rintro ⟨hpos, hle, hsuffix⟩
    exact ⟨hpos, hle, hsuffix.trans (List.suffix_append _ _)⟩

/-- **Only the last block has to be looked at.** -/
theorem strip?_append_block {front block : Bytes} (hb : block.length = 16) :
    strip? (front ++ block) = (strip? block).map (front ++ ·) := by
  cases hstrip : strip? block with
  | none =>
    rw [strip?_eq_none] at hstrip
    exact strip?_eq_none.mpr fun r hr => hstrip r ((ends_append_block hb).mp hr)
  | some tail =>
    obtain ⟨r, hr, rfl⟩ := strip?_eq_some.mp hstrip
    have hle := hr.le
    have hlen : (front ++ block).length - r = front.length + (block.length - r) := by
      rw [List.length_append]
      omega
    refine strip?_eq_some.mpr ⟨r, (ends_append_block hb).mpr hr, ?_⟩
    rw [hlen, List.take_length_add_append]

end Padding

namespace Cbc

/-! ## 2. The chain, block by block -/

/-- **`C_i` is the encipherment of `P_i` combined with `C_{i-1}`**, where `C₀` is the first
block. -/
structure Chained (keys : Aes.RoundKeys) (iv : Block) (ps cs : List Block) : Prop where
  count : cs.length = ps.length
  link : ∀ (i : Nat) (hp : i < ps.length) (hc : i < cs.length),
    cs[i] = Aes.encipher keys (ps[i] ^^^ (iv :: cs).get ⟨i, Nat.lt_succ_of_lt hc⟩)

/-- **`P_i` is the decipherment of `C_i`, combined with `C_{i-1}`**, where `C₀` is the first
block. -/
structure Unchained (keys : Aes.RoundKeys) (iv : Block) (cs ps : List Block) : Prop where
  count : ps.length = cs.length
  link : ∀ (i : Nat) (hc : i < cs.length) (hp : i < ps.length),
    ps[i] = Aes.decipher keys cs[i] ^^^ (iv :: cs).get ⟨i, Nat.lt_succ_of_lt hc⟩

variable {keys : Aes.RoundKeys} {iv : Block}

/-- **Enciphering blocks one after the other is the chain.** -/
theorem chained_iff {ps cs : List Block} :
    Chained keys iv ps cs ↔ (chainEncrypt keys iv ps).1 = cs := by
  -- for every first block, since what follows the first link is a chain from its ciphertext
  induction ps generalizing iv cs with
  | nil =>
    constructor
    · intro h
      exact (List.length_eq_zero_iff.mp h.count).symm
    · rintro rfl
      exact ⟨rfl, fun i hp => absurd hp (Nat.not_lt_zero i)⟩
  | cons p ps ih =>
    constructor
    · intro h
      obtain ⟨c, cs, rfl⟩ := List.exists_cons_of_length_eq_add_one h.count
      have hc : c = Aes.encipher keys (p ^^^ iv) :=
        h.link 0 (Nat.zero_lt_succ _) (Nat.zero_lt_succ _)
      have hrest : Chained keys c ps cs :=
        ⟨Nat.succ.inj h.count, fun i hp hc =>
          h.link (i + 1) (Nat.succ_lt_succ hp) (Nat.succ_lt_succ hc)⟩
      simp only [chainEncrypt, ← hc, ih.mp hrest]
    · rintro rfl
      have hrest : Chained keys (Aes.encipher keys (p ^^^ iv)) ps _ := ih.mpr rfl
      refine ⟨congrArg (· + 1) hrest.count, fun i hp hc => ?_⟩
      cases i with
      | zero => rfl
      | succ i => exact hrest.link i (Nat.lt_of_succ_lt_succ hp) (Nat.lt_of_succ_lt_succ hc)

/-- **Deciphering blocks one after the other undoes the chain.** -/
theorem unchained_iff {cs ps : List Block} :
    Unchained keys iv cs ps ↔ (chainDecrypt keys iv cs).1 = ps := by
  induction cs generalizing iv ps with
  | nil =>
    constructor
    · intro h
      exact (List.length_eq_zero_iff.mp h.count).symm
    · rintro rfl
      exact ⟨rfl, fun i hc => absurd hc (Nat.not_lt_zero i)⟩
  | cons c cs ih =>
    constructor
    · intro h
      obtain ⟨p, ps, rfl⟩ := List.exists_cons_of_length_eq_add_one h.count
      have hp : p = Aes.decipher keys c ^^^ iv :=
        h.link 0 (Nat.zero_lt_succ _) (Nat.zero_lt_succ _)
      have hrest : Unchained keys c cs ps :=
        ⟨Nat.succ.inj h.count, fun i hc hp =>
          h.link (i + 1) (Nat.succ_lt_succ hc) (Nat.succ_lt_succ hp)⟩
      simp only [chainDecrypt, ← hp, ih.mp hrest]
    · rintro rfl
      have hrest : Unchained keys c cs _ := ih.mpr rfl
      refine ⟨congrArg (· + 1) hrest.count, fun i hc hp => ?_⟩
      cases i with
      | zero => rfl
      | succ i => exact hrest.link i (Nat.lt_of_succ_lt_succ hc) (Nat.lt_of_succ_lt_succ hp)

/-! ## 3. What a message and a body come to -/

/-- **A message comes to the chain of its blocks**, padding among them. -/
theorem whole_encrypt (keys : Aes.RoundKeys) (iv : Block) (m : Bytes) :
    ∃ ps, bytesOf ps = m ++ Padding.after m.length ∧
      State.whole ⟨.encrypt, keys, iv, []⟩ m = .ok (bytesOf (chainEncrypt keys iv ps).1) := by
  obtain ⟨xs, b, tail, out, hm, hb, hclose, hsum⟩ := State.encrypt_blocks keys iv m
  have hpadding : Padding.after m.length = Padding.after tail.length := by
    have hmod : m.length % 16 = tail.length % 16 := by
      rw [hm, List.length_append, length_bytesOf]
      omega
    rw [Padding.after, hmod, Padding.after]
  refine ⟨xs ++ [b], ?_, ?_⟩
  · rw [bytesOf_append, bytesOf_singleton, hb, ← List.append_assoc, ← hm, hpadding]
  · rw [State.whole, hclose, ← hsum]
    rfl

/-- **A body of whole blocks comes to what they decipher to, without its padding.** -/
theorem whole_decrypt (keys : Aes.RoundKeys) (iv : Block) {cs : List Block} (hne : cs ≠ []) :
    State.whole ⟨.decrypt, keys, iv, []⟩ (bytesOf cs) =
      match Padding.strip? (bytesOf (chainDecrypt keys iv cs).1) with
      | none => .error .badPadding
      | some plain => .ok plain := by
  -- the engine holds the last block back until the end, so the blocks are split in front of it
  obtain ⟨ys, y, rfl⟩ := (List.eq_nil_or_concat' cs).resolve_left hne
  obtain ⟨xs, b, hchain⟩ : ∃ xs b, (chainDecrypt keys iv (ys ++ [y])).1 = xs ++ [b] := by
    refine (List.eq_nil_or_concat' _).resolve_left fun hnil => ?_
    have hlen := State.length_chain ⟨.decrypt, keys, iv, []⟩ (ys ++ [y])
    simp [State.chain, hnil] at hlen
  obtain ⟨hfront, hback⟩ := State.decrypt_blocks hchain
  rw [State.whole, hfront, hback, hchain, bytesOf_append, bytesOf_singleton,
    Padding.strip?_append_block b.length_toBytes]
  cases Padding.strip? b.toBytes <;> rfl

/-- **A body that is not of whole blocks fails with what is left over**, and so does no body at
all. -/
theorem whole_ragged (keys : Aes.RoundKeys) (iv : Block) {c : Bytes}
    (hc : c.length = 0 ∨ c.length % 16 ≠ 0) :
    State.whole ⟨.decrypt, keys, iv, []⟩ c =
      .error (.invalidCiphertextLength (c.length % 16)) := by
  obtain ⟨s, hs⟩ : ∃ s : State, s = ⟨.decrypt, keys, iv, []⟩ := ⟨_, rfl⟩
  have hpending : (s.feed c).2.pending.length = c.length % 16 := by
    rw [s.length_pending_feed, hs]
    simp only [ready, blockWidth, List.length_nil, Nat.zero_add]
    omega
  have hdirection : (s.feed c).2.direction = .decrypt := by rw [s.direction_feed, hs]
  have hclose : (s.feed c).2.close = .error (.invalidCiphertextLength (c.length % 16)) := by
    rw [State.close, hdirection]
    simp only [CbcEngine.lastDecrypted, hpending]
    rw [if_pos (by rw [blockWidth]; omega)]
  rw [← hs, State.whole, hclose]
  rfl

/-- **Any other body is of whole blocks.** -/
theorem exists_blocks {c : Bytes} (hc : ¬(c.length = 0 ∨ c.length % 16 ≠ 0)) :
    ∃ cs, cs ≠ [] ∧ bytesOf cs = c := by
  have hbytes : bytesOf (Block.ofMessage c) = c := bytesOf_ofMessage (c.length / 16) c (by omega)
  refine ⟨Block.ofMessage c, fun hnil => hc (.inl ?_), hbytes⟩
  rw [← hbytes, hnil]
  rfl

/-- A body fails for its length if it is not of whole blocks, and only then. -/
theorem whole_eq_ragged {c : Bytes} {n : Nat} :
    State.whole ⟨.decrypt, keys, iv, []⟩ c = .error (.invalidCiphertextLength n) ↔
      n = c.length % 16 ∧ (c.length = 0 ∨ c.length % 16 ≠ 0) := by
  by_cases hc : c.length = 0 ∨ c.length % 16 ≠ 0
  · rw [whole_ragged keys iv hc]
    constructor
    · intro h
      exact ⟨(EngineError.invalidCiphertextLength.inj (Except.error.inj h)).symm, hc⟩
    · rintro ⟨rfl, -⟩
      rfl
  · obtain ⟨cs, hne, rfl⟩ := exists_blocks hc
    rw [whole_decrypt keys iv hne]
    refine iff_of_false ?_ fun h => hc h.2
    cases Padding.strip? (bytesOf (chainDecrypt keys iv cs).1) <;> simp

/-! ## 4. The engine -/

open Engine

/-- **An engine keyed to seal and one keyed to open are cipher block chaining with strict padding**,
under these round keys and from this first block. -/
structure Standard (keys : Aes.RoundKeys) (iv : Block) (sealing opening : Engine) : Prop where
  /-- A message comes to the chain of its blocks, with `r` bytes of value `r` behind it, and so to
  one block more than it has whole ones. -/
  enciphers : ∀ m : Bytes, ∃ ps cs,
    bytesOf ps = m ++ List.replicate (16 - m.length % 16) (UInt8.ofNat (16 - m.length % 16)) ∧
    Chained keys iv ps cs ∧ sealing.ComesTo m (.ok (bytesOf cs)) ∧
    (bytesOf cs).length = 16 * (m.length / 16 + 1)
  /-- A body fails for its length if it has no block, or something behind the last one. -/
  ragged : ∀ (c : Bytes) (n : Nat), opening.ComesTo c (.error (.invalidCiphertextLength n)) ↔
    n = c.length % 16 ∧ (c.length = 0 ∨ c.length % 16 ≠ 0)
  /-- Any other body fails for its padding if what its blocks decipher to does not end in padding,
  and otherwise comes to what is before the padding. -/
  deciphers : ∀ c : Bytes, c.length ≠ 0 → c.length % 16 = 0 → ∃ cs ps,
    bytesOf cs = c ∧ Unchained keys iv cs ps ∧
    (opening.ComesTo c (.error .badPadding) ↔ ∀ r, ¬Padding.Ends r (bytesOf ps)) ∧
    ∀ r, Padding.Ends r (bytesOf ps) →
      opening.ComesTo c (.ok ((bytesOf ps).take ((bytesOf ps).length - r)))
  /-- A body comes to a message if and only if the message comes to the body. -/
  inverse : ∀ c p : Bytes, opening.ComesTo c (.ok p) ↔ sealing.ComesTo p (.ok c)

/-- Engines with nothing pending are cipher block chaining from the block they chain to. -/
theorem standard_of_nil (width : KeyWidth) (keys : Aes.RoundKeys) (iv : Block) :
    Standard keys iv (.cbc ⟨width, some ⟨.encrypt, keys, iv, []⟩⟩)
      (.cbc ⟨width, some ⟨.decrypt, keys, iv, []⟩⟩) := by
  have hcomes : ∀ direction d result,
      ComesTo (.cbc ⟨width, some ⟨direction, keys, iv, []⟩⟩) d result ↔
        State.whole ⟨direction, keys, iv, []⟩ d = result :=
    fun direction d result => comesTo_iff (.cbc width _ (State.settled_of_nil rfl))
  constructor
  case enciphers =>
    intro m
    obtain ⟨ps, hps, hwhole⟩ := whole_encrypt keys iv m
    have hchained : Chained keys iv ps (chainEncrypt keys iv ps).1 := chained_iff.mpr rfl
    refine ⟨ps, _, hps, hchained, (hcomes .encrypt _ _).mpr hwhole, ?_⟩
    have hlen := congrArg List.length hps
    rw [length_bytesOf, List.length_append, Padding.length_after] at hlen
    rw [length_bytesOf, hchained.count]
    omega
  case ragged =>
    intro c n
    rw [hcomes]
    exact whole_eq_ragged
  case deciphers =>
    intro c hc halign
    obtain ⟨cs, hne, rfl⟩ := exists_blocks (not_or.mpr ⟨hc, not_not.mpr halign⟩)
    obtain ⟨ps, hps⟩ : ∃ ps, (chainDecrypt keys iv cs).1 = ps := ⟨_, rfl⟩
    refine ⟨cs, ps, rfl, unchained_iff.mpr hps, ?_, fun r hr => ?_⟩
    · rw [hcomes, whole_decrypt keys iv hne, hps, ← Padding.strip?_eq_none]
      cases Padding.strip? (bytesOf ps) <;> simp
    · rw [hcomes, whole_decrypt keys iv hne, hps, Padding.strip?_eq_some.mpr ⟨r, hr, rfl⟩]
  case inverse =>
    intro c p
    rw [hcomes, hcomes]
    exact ⟨State.whole_back, State.whole_whole⟩

/-- **Keying an engine for cipher block chaining gives cipher block chaining as the textbook has
it**, for every key and nonce of the right length, every message and every body, fed with room
enough; whatever the engine was used for before. -/
theorem standard_of_keyed (width : KeyWidth) (state : Option State) {key : Key} {nonce : Bytes}
    (aad : Bytes) (hk : key.bytes.length = width.bytes) (hn : nonce.length = cbcNonce) :
    ∃ iv sealing opening, iv.toBytes = nonce ∧
      init .encrypt key nonce aad (.cbc ⟨width, state⟩) = .ok () sealing ∧
      init .decrypt key nonce aad (.cbc ⟨width, state⟩) = .ok () opening ∧
      Standard (Aes.expandKey key.bytes) iv sealing opening :=
  ⟨.ofBytes nonce, _, _, Block.toBytes_ofBytes hn, keyFor_eq_ok.mp (keyFor_cbc.mpr ⟨hk, hn, rfl⟩),
    keyFor_eq_ok.mp (keyFor_cbc.mpr ⟨hk, hn, rfl⟩), standard_of_nil width _ _⟩

/-- Twenty bytes, a whole block and a rest of four, come to two blocks, and the blocks to the twenty
bytes; twenty bytes of the blocks are refused for the four that are no block. -/
theorem standard_of_keyed_twenty_bytes :
    ∃ sealing opening body,
      init .encrypt ⟨Bytes.zeros 16⟩ (Bytes.zeros 16) [] (.cbc (.new .aes128)) = .ok () sealing ∧
      init .decrypt ⟨Bytes.zeros 16⟩ (Bytes.zeros 16) [] (.cbc (.new .aes128)) = .ok () opening ∧
      sealing.ComesTo (List.replicate 20 7) (.ok body) ∧ body.length = 32 ∧
      opening.ComesTo body (.ok (List.replicate 20 7)) ∧
      opening.ComesTo (body.take 20) (.error (.invalidCiphertextLength 4)) := by
  obtain ⟨iv, sealing, opening, -, hs, ho, h⟩ :=
    @standard_of_keyed .aes128 none ⟨Bytes.zeros 16⟩ (Bytes.zeros 16) [] rfl rfl
  obtain ⟨ps, cs, -, -, hcomes, hlen⟩ := h.enciphers (List.replicate 20 7)
  have hlen : (bytesOf cs).length = 32 := hlen
  have hcut : ((bytesOf cs).take 20).length = 20 := by
    rw [List.length_take, hlen]
    rfl
  refine ⟨sealing, opening, bytesOf cs, hs, ho, hcomes, hlen, (h.inverse _ _).mpr hcomes, ?_⟩
  exact (h.ragged _ 4).mpr (by rw [hcut]; decide)

end Cbc

end Envelope

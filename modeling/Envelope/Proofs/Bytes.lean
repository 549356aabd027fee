/-
# Laws of byte strings

Lengths and names are written into headers and read back, so each of the two integer forms has to be
the inverse of the other: a number below `256 ^ width` survives being written, and a byte string
survives being read as a number and written again at its own width.  The second half is what makes a
header canonical; with the first alone two byte strings could still mean the same length.

The cut into pieces is compatible with concatenation wherever the cut falls between two pieces.
That is the only fact about it that block-by-block processing needs.
-/
import Mathlib
import Envelope.Bytes.Utf8
import Envelope.Block

namespace Envelope.Bytes

/-! ## 1. Numbers, least significant byte first -/

theorem toNatLE_lt : ∀ bs : Bytes, toNatLE bs < 256 ^ bs.length
  | [] => by simp [toNatLE]
  | b :: bs => by
    have ih := toNatLE_lt bs
    have hb : b.toNat < 256 := b.toNat_lt
    simp only [toNatLE, List.length_cons, pow_succ]
    omega

/-- **A number that fits survives being written.** -/
theorem toNatLE_ofNatLE (width : Nat) : ∀ n, n < 256 ^ width → toNatLE (ofNatLE width n) = n := by
  induction width with
  | zero => intro n h; simp only [pow_zero] at h; simp only [ofNatLE, toNatLE]; omega
  | succ width ih =>
    intro n h
    have hdiv : n / 256 < 256 ^ width := by rw [pow_succ] at h; omega
    rw [ofNatLE, toNatLE, ih _ hdiv, UInt8.toNat_ofNat']
    omega

/-- **A byte string survives being read as a number.** -/
theorem ofNatLE_toNatLE : ∀ bs : Bytes, ofNatLE bs.length (toNatLE bs) = bs
  | [] => rfl
  | b :: bs => by
    have hb : b.toNat < 256 := b.toNat_lt
    have hlow : UInt8.ofNat (b.toNat + 256 * toNatLE bs) = b := by
      apply UInt8.toNat_inj.mp
      rw [UInt8.toNat_ofNat']
      omega
    have hhigh : (b.toNat + 256 * toNatLE bs) / 256 = toNatLE bs := by omega
    rw [toNatLE, List.length_cons, ofNatLE, hlow, hhigh, ofNatLE_toNatLE bs]

/-! ## 2. Numbers, most significant byte first -/

theorem toNatBE_lt (bs : Bytes) : toNatBE bs < 256 ^ bs.length := by
  have h := toNatLE_lt bs.reverse
  rwa [List.length_reverse] at h

theorem toNatBE_ofNatBE {width n : Nat} (h : n < 256 ^ width) :
    toNatBE (ofNatBE width n) = n := by
  rw [toNatBE, ofNatBE, List.reverse_reverse, toNatLE_ofNatLE width n h]

theorem ofNatBE_toNatBE {width : Nat} {bs : Bytes} (h : bs.length = width) :
    ofNatBE width (toNatBE bs) = bs := by
  have hr := ofNatLE_toNatLE bs.reverse
  rw [List.length_reverse, h] at hr
  rw [ofNatBE, toNatBE, hr, List.reverse_reverse]

/-- **The most significant byte stands first.** -/
theorem ofNatBE_succ (width n : Nat) :
    ofNatBE (width + 1) n = UInt8.ofNat (n / 256 ^ width) :: ofNatBE width n := by
  have hlast : ∀ n, ofNatLE (width + 1) n = ofNatLE width n ++ [UInt8.ofNat (n / 256 ^ width)] := by
    induction width with
    | zero => intro n; simp [ofNatLE]
    | succ width ih =>
      intro n
      rw [ofNatLE, ih, ofNatLE, List.cons_append, Nat.div_div_eq_div_mul, pow_succ, Nat.mul_comm]
  rw [ofNatBE, hlast, List.reverse_append, ofNatBE]
  rfl

/-- What the first byte is worth. -/
theorem toNatBE_cons (b : UInt8) (bs : Bytes) :
    toNatBE (b :: bs) = b.toNat * 256 ^ bs.length + toNatBE bs := by
  have hlast : ∀ front : Bytes,
      toNatLE (front ++ [b]) = toNatLE front + b.toNat * 256 ^ front.length := by
    intro front
    induction front with
    | nil => simp [toNatLE]
    | cons x front ih =>
      rw [List.cons_append, toNatLE, ih, toNatLE, List.length_cons, pow_succ]
      ring
  rw [toNatBE, List.reverse_cons, hlast, List.length_reverse, toNatBE, Nat.add_comm]

/-! ## 3. Signed numbers of four bytes -/

/-- **A number whose first byte is not zero is negative or large.** -/
theorem toInt32_of_head_ne_zero {b : UInt8} {bs : Bytes} (hb : b ≠ 0) (hl : bs.length = 3) :
    toInt32 (b :: bs) < 0 ∨ 0x1000000 ≤ toInt32 (b :: bs) := by
  have hpos : 0 < b.toNat := by
    refine Nat.pos_of_ne_zero fun h => hb ?_
    exact UInt8.toNat_inj.mp h
  have hnum := toNatBE_cons b bs
  have hlt := toNatBE_lt (b :: bs)
  rw [List.length_cons, hl] at hlt
  rw [hl] at hnum
  simp only [toInt32]
  split
  · right
    omega
  · left
    omega

/-- A length below `2 ^ 31` is read as itself. -/
theorem toInt32_ofNatBE {n : Nat} (h : n < 0x80000000) : toInt32 (ofNatBE 4 n) = n := by
  simp only [toInt32]
  rw [toNatBE_ofNatBE (by omega), if_pos h]

/-- **Four bytes that are read as a length are that length's only form.** -/
theorem ofNatBE_toInt32 {bs : Bytes} (hl : bs.length = 4) (h : 0 ≤ toInt32 bs) :
    ofNatBE 4 (toInt32 bs).toNat = bs := by
  have hlt := toNatBE_lt bs
  rw [hl] at hlt
  simp only [toInt32] at h ⊢
  split at h
  · rename_i hsmall
    rw [if_pos hsmall, Int.toNat_natCast, ofNatBE_toNatBE hl]
  · omega

/-- The same for every signed number. -/
theorem ofInt32_toInt32 {bs : Bytes} (hl : bs.length = 4) : ofInt32 (toInt32 bs) = bs := by
  have hlt := toNatBE_lt bs
  rw [hl] at hlt
  have hmod : (toInt32 bs % 0x100000000).toNat = toNatBE bs := by
    simp only [toInt32]
    split <;> omega
  rw [ofInt32, hmod, ofNatBE_toNatBE hl]

/-! ## 4. Text -/

/-- **Writing undoes reading**: a name has one form. -/
theorem ofText_of_toText? {bs : Bytes} {s : String} (h : toText? bs = some s) :
    ofText s = bs := by
  rw [toText?, String.fromUTF8?] at h
  split at h
  · obtain rfl := Option.some.inj h
    rfl
  · simp at h

/-! ## 5. Pieces -/

theorem pieces_nil (width : Nat) : pieces width [] = [] := by
  rw [pieces]
  simp

/-- A piece in front is the first piece. -/
theorem pieces_cons {width : Nat} {a : Bytes} (hw : 0 < width) (ha : a.length = width)
    (b : Bytes) : pieces width (a ++ b) = a :: pieces width b := by
  rw [pieces, dif_pos ⟨hw, by rw [List.length_append]; omega⟩]
  rw [List.take_left' ha, List.drop_left' ha]

/-- **Whole pieces in front stay as they are.** -/
theorem pieces_append {width : Nat} (hw : 0 < width) :
    ∀ (n : Nat) (a b : Bytes), a.length = width * n →
      pieces width (a ++ b) = pieces width a ++ pieces width b
  | 0, a, b, h => by
    obtain rfl : a = [] := List.length_eq_zero_iff.mp (by simpa using h)
    rw [pieces_nil, List.nil_append, List.nil_append]
  | n + 1, a, b, h => by
    have hle : width ≤ a.length := by rw [h, Nat.mul_succ]; omega
    have hfront : (a.take width).length = width := by rw [List.length_take]; omega
    have hback : (a.drop width).length = width * n := by
      rw [List.length_drop, h, Nat.mul_succ]
      omega
    have ha : a = a.take width ++ a.drop width := (List.take_append_drop width a).symm
    calc pieces width (a ++ b)
        = pieces width (a.take width ++ (a.drop width ++ b)) := by
          rw [← List.append_assoc, ← ha]
      _ = a.take width :: pieces width (a.drop width ++ b) := pieces_cons hw hfront _
      _ = a.take width :: (pieces width (a.drop width) ++ pieces width b) := by
          rw [pieces_append hw n _ b hback]
      _ = pieces width a ++ pieces width b := by
          rw [← List.cons_append, ← pieces_cons hw hfront, ← ha]

/-- Pieces of one width, put together. -/
theorem length_flatMap {α : Type} {f : α → Bytes} {width : Nat} (h : ∀ a, (f a).length = width)
    (l : List α) : (l.flatMap f).length = width * l.length := by
  induction l with
  | nil => rfl
  | cons a l ih => rw [List.flatMap_cons, List.length_append, h, ih, List.length_cons, Nat.mul_succ,
      Nat.add_comm]

/-! ## 6. Exclusive or -/

theorem length_xor {a b : Bytes} (h : a.length ≤ b.length) : (xor a b).length = a.length := by
  rw [xor, List.length_zipWith]
  omega

/-- **A mask that is long enough comes off again.** -/
theorem xor_xor : ∀ {a b : Bytes}, a.length ≤ b.length → xor (xor a b) b = a
  | [], _, _ => rfl
  | x :: a, [], h => by simp at h
  | x :: a, y :: b, h => by
    have ih : xor (xor a b) b = a := xor_xor (by simpa using h)
    simp only [xor, List.zipWith_cons_cons] at ih ⊢
    rw [ih, UInt8.xor_assoc, UInt8.xor_self, UInt8.xor_zero]

end Envelope.Bytes

namespace Envelope.Block

/-! ## 7. Blocks of a message -/

theorem toBytes_column : ∀ {bs : Bytes}, 4 ≤ bs.length → (Column.ofBytes bs).toBytes = bs.take 4
  | _ :: _ :: _ :: _ :: _, _ => rfl
  | [], h | [_], h | [_, _], h | [_, _, _], h => by simp at h

/-- **Sixteen bytes are the bytes of their block.** -/
theorem toBytes_ofBytes {bs : Bytes} (h : bs.length = 16) : (ofBytes bs).toBytes = bs := by
  rw [ofBytes, toBytes, toBytes_column (by omega), toBytes_column (by rw [List.length_drop]; omega),
    toBytes_column (by rw [List.length_drop]; omega),
    toBytes_column (by rw [List.length_drop]; omega)]
  have hlast : (bs.drop 12).take 4 = bs.drop 12 :=
    List.take_of_length_le (by rw [List.length_drop]; omega)
  rw [hlast, ← List.take_add, ← List.take_add, List.take_append_drop]

theorem ofMessage_nil : ofMessage [] = [] := by
  rw [ofMessage, Bytes.pieces_nil, List.map_nil]

/-- **Blocks of a message are taken from the front**, as long as the front is whole blocks. -/
theorem ofMessage_append {a : Bytes} (h : a.length % 16 = 0) (b : Bytes) :
    ofMessage (a ++ b) = ofMessage a ++ ofMessage b := by
  rw [ofMessage, ofMessage, ofMessage, ← List.map_append,
    Bytes.pieces_append (by decide) (a.length / 16) a b (by omega)]

/-- One block in front. -/
theorem ofMessage_cons (x : Block) (rest : Bytes) :
    ofMessage (x.toBytes ++ rest) = x :: ofMessage rest := by
  rw [ofMessage, Bytes.pieces_cons (by decide) x.length_toBytes, List.map_cons, ofMessage]
  congr 1

end Envelope.Block

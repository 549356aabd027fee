/-
# Deciphering undoes enciphering

Each layer of a round is undone on its own, and a round is undone from the outside in; the rest is
an induction on the list of round keys, whatever the keys are (`decipher_encipher`).

* The substitution is a permutation.  One check says that every byte occurs in the table
  (`mem_substitution`); so the inverse table finds a place for each, which makes it a right inverse,
  and on a finite set a right inverse is an inverse.
* The column mixing is linear, so it is enough to look at one byte of a column at a time: what
  becomes of it on the way there and back is the byte itself in its own place and nothing in the
  other three.  These are four identities between polynomials in `x` (`unmix_places`), which hold
  before any reduction: only that `twice` is linear is used.
-/
import Envelope.Proofs.Bytes
import Envelope.Aes

namespace Envelope.Aes

/-! ## 1. The substitution -/

/-- The bytes of a list as the bits of a number. -/
def bits (l : Bytes) : Nat := l.foldr (fun b n => n ||| 2 ^ b.toNat) 0

theorem mem_of_testBit_bits {l : Bytes} {y : UInt8} (h : (bits l).testBit y.toNat = true) :
    y ∈ l := by
  induction l with
  | nil => simp [bits] at h
  | cons b l ih =>
    rw [bits, List.foldr_cons, ← bits, Nat.testBit_or, Bool.or_eq_true, Nat.testBit_two_pow] at h
    rcases h with h | h
    · exact List.mem_cons_of_mem b (ih h)
    · obtain rfl : b = y := UInt8.toNat_inj.mp (of_decide_eq_true h)
      exact List.mem_cons_self

/-- **Every byte occurs in the table.** -/
theorem mem_substitution (y : UInt8) : y ∈ substitution.toList := by
  -- through a number, because 256 searches of the table would be slow to check
  have hall : bits substitution.toList = 2 ^ 256 - 1 := by decide +kernel
  refine mem_of_testBit_bits ?_
  rw [hall, Nat.testBit_two_pow_sub_one]
  exact decide_eq_true y.toNat_lt

theorem unsubstitute_eq (y : UInt8) :
    unsubstitute y = UInt8.ofNat (substitution.toList.idxOf y) := by
  have hy : y.toNat < ((List.range 256).map fun n =>
      UInt8.ofNat (substitution.toList.idxOf (UInt8.ofNat n))).toArray.size := by
    simpa using y.toNat_lt
  rw [unsubstitute, inverseSubstitution, Array.getD, dif_pos hy]
  simp

/-- The byte that is replaced by `y` is replaced by `y`. -/
theorem substitute_unsubstitute (y : UInt8) : substitute (unsubstitute y) = y := by
  have hlength : substitution.toList.length = 256 := by decide +kernel
  have hlt := List.idxOf_lt_length_of_mem (mem_substitution y)
  have hplace : (unsubstitute y).toNat = substitution.toList.idxOf y := by
    rw [unsubstitute_eq, UInt8.toNat_ofNat']
    omega
  have hsize : substitution.toList.idxOf y < substitution.size := hlt
  rw [substitute, hplace, Array.getD, dif_pos hsize]
  exact List.getElem_idxOf hlt

/-- **The inverse table is one.** -/
theorem unsubstitute_substitute (b : UInt8) : unsubstitute (substitute b) = b := by
  have hinj : Function.Injective unsubstitute :=
    Function.LeftInverse.injective substitute_unsubstitute
  obtain ⟨y, rfl⟩ := Finite.surjective_of_injective hinj b
  rw [substitute_unsubstitute]

/-! ## 2. The field -/

/-- What is added when the top bit falls out. -/
def reduction (b : UInt8) : UInt8 := if b >>> 7 = 0 then 0 else 0x1b

/-- The top bit. -/
theorem shiftRight_seven (b : UInt8) : b >>> 7 = if b < 0x80 then 0 else 1 := by
  have hb := b.toNat_lt
  have htop : (b >>> 7).toNat = b.toNat / 128 := by
    rw [UInt8.toNat_shiftRight]
    exact Nat.shiftRight_eq_div_pow _ _
  have hlt : b < 0x80 ↔ b.toNat < 128 := UInt8.lt_iff_toNat_lt
  rw [← UInt8.toNat_inj, htop]
  by_cases h : b < 0x80
  · rw [if_pos h]
    exact Nat.div_eq_of_lt (hlt.mp h)
  · rw [if_neg h]
    show b.toNat / 128 = 1
    have hge := mt hlt.mpr h
    omega

theorem twice_eq (b : UInt8) : twice b = (b <<< 1) ^^^ reduction b := by
  rw [twice, reduction, shiftRight_seven]
  by_cases h : b < 0x80
  · rw [if_pos h, if_pos h, if_pos rfl, UInt8.xor_zero]
  · rw [if_neg h, if_neg h, if_neg (by decide)]

theorem reduction_xor (a b : UInt8) : reduction (a ^^^ b) = reduction a ^^^ reduction b := by
  have htop : ∀ x : UInt8, x >>> 7 = 0 ∨ x >>> 7 = 1 := by
    intro x
    rw [shiftRight_seven]
    split
    · exact Or.inl rfl
    · exact Or.inr rfl
  simp only [reduction, UInt8.shiftRight_xor]
  rcases htop a with ha | ha <;> rcases htop b with hb | hb <;> rw [ha, hb] <;> decide

/-- A map of bytes that respects sums. -/
def Linear (f : UInt8 → UInt8) : Prop := ∀ a b, f (a ^^^ b) = f a ^^^ f b

theorem linear_id : Linear fun b => b := fun _ _ => rfl

theorem Linear.comp {f g : UInt8 → UInt8} (hf : Linear f) (hg : Linear g) :
    Linear fun b => f (g b) := by
  intro a b
  simp only [hg a b, hf (g a) (g b)]

theorem Linear.add {f g : UInt8 → UInt8} (hf : Linear f) (hg : Linear g) :
    Linear fun b => f b ^^^ g b := by
  intro a b
  simp only [hf a b, hg a b]
  ac_rfl

/-- **Multiplication by `x` is linear.** -/
theorem linear_twice : Linear twice := by
  intro a b
  rw [twice_eq, twice_eq, twice_eq, UInt8.shiftLeft_xor, reduction_xor]
  ac_rfl

theorem linear_thrice : Linear thrice := linear_twice.add linear_id

/-- So are the products that the inverse mixing takes. -/
theorem linear_times : Linear times9 ∧ Linear times11 ∧ Linear times13 ∧ Linear times14 := by
  have hfour := linear_twice.comp linear_twice
  have hsix := linear_twice.comp linear_thrice
  refine ⟨?_, ?_, ?_, ?_⟩
  · exact (linear_twice.comp hfour).add linear_id
  · exact (linear_twice.comp (hfour.add linear_id)).add linear_id
  · exact (linear_twice.comp hsix).add linear_id
  · exact linear_twice.comp (hsix.add linear_id)

/-! ## 3. Columns -/

theorem xor_left_comm (a b c : UInt8) : a ^^^ (b ^^^ c) = b ^^^ (a ^^^ c) := by
  rw [← UInt8.xor_assoc, UInt8.xor_comm a, UInt8.xor_assoc]

/-- Two equal terms of a sum cancel. -/
theorem xor_cancel_left (a b : UInt8) : a ^^^ (a ^^^ b) = b := by
  rw [← UInt8.xor_assoc, UInt8.xor_self, UInt8.zero_xor]

/-- **What becomes of one byte**: it comes back to its own place, and nothing of it to the place
before, to the place opposite and to the place behind. -/
theorem unmix_places (x : UInt8) :
    times14 (twice x) ^^^ times11 x ^^^ times13 x ^^^ times9 (thrice x) = x ∧
      times14 (thrice x) ^^^ times11 (twice x) ^^^ times13 x ^^^ times9 x = 0 ∧
      times14 x ^^^ times11 (thrice x) ^^^ times13 (twice x) ^^^ times9 x = 0 ∧
      times14 x ^^^ times11 x ^^^ times13 (thrice x) ^^^ times9 (twice x) = 0 := by
  simp only [times14, times11, times13, times9, thrice, linear_twice _ _]
  refine ⟨?_, ?_, ?_, ?_⟩
  all_goals
    simp only [UInt8.xor_assoc, UInt8.xor_comm, xor_left_comm, xor_cancel_left, UInt8.xor_self,
      UInt8.xor_zero]

/-- One byte of a column, there and back: only the byte itself is left of the four. -/
theorem unmix_byte (a b c d : UInt8) :
    times14 (twice a ^^^ thrice b ^^^ c ^^^ d) ^^^ times11 (a ^^^ twice b ^^^ thrice c ^^^ d) ^^^
      times13 (a ^^^ b ^^^ twice c ^^^ thrice d) ^^^ times9 (thrice a ^^^ b ^^^ c ^^^ twice d) =
      a := by
  obtain ⟨h9, h11, h13, h14⟩ := linear_times
  simp only [h14 _ _, h11 _ _, h13 _ _, h9 _ _]
  calc _ = (times14 (twice a) ^^^ times11 a ^^^ times13 a ^^^ times9 (thrice a)) ^^^
        (times14 (thrice b) ^^^ times11 (twice b) ^^^ times13 b ^^^ times9 b) ^^^
        (times14 c ^^^ times11 (thrice c) ^^^ times13 (twice c) ^^^ times9 c) ^^^
        (times14 d ^^^ times11 d ^^^ times13 (thrice d) ^^^ times9 (twice d)) := by ac_rfl
    _ = a := by
      rw [(unmix_places a).1, (unmix_places b).2.1, (unmix_places c).2.2.1,
        (unmix_places d).2.2.2, UInt8.xor_zero, UInt8.xor_zero, UInt8.xor_zero]

/-- **The column mixing is undone.**  Each place sees the column turned to it, so the four are one
case. -/
theorem unmixColumn_mixColumn (x : Column) : unmixColumn (mixColumn x) = x := by
  obtain ⟨a, b, c, d⟩ := x
  simp only [mixColumn, unmixColumn, Column.mk.injEq]
  refine ⟨unmix_byte a b c d, ?_, ?_, ?_⟩
  · exact Eq.trans (by ac_rfl) (unmix_byte b c d a)
  · exact Eq.trans (by ac_rfl) (unmix_byte c d a b)
  · exact Eq.trans (by ac_rfl) (unmix_byte d a b c)

/-! ## 4. Blocks and rounds -/

/-- A block that was added comes off again. -/
theorem xor_xor_block (x k : Block) : (x ^^^ k) ^^^ k = x := by
  have hbyte : ∀ a b : UInt8, (a ^^^ b) ^^^ b = a := fun a b => by
    rw [UInt8.xor_assoc, UInt8.xor_self, UInt8.xor_zero]
  have hcolumn : ∀ a b : Column, (a ^^^ b) ^^^ b = a := by
    rintro ⟨a, b, c, d⟩ ⟨a', b', c', d'⟩
    show (⟨(a ^^^ a') ^^^ a', (b ^^^ b') ^^^ b', (c ^^^ c') ^^^ c', (d ^^^ d') ^^^ d'⟩ : Column) = _
    rw [hbyte, hbyte, hbyte, hbyte]
  obtain ⟨a, b, c, d⟩ := x
  obtain ⟨a', b', c', d'⟩ := k
  show (⟨(a ^^^ a') ^^^ a', (b ^^^ b') ^^^ b', (c ^^^ c') ^^^ c', (d ^^^ d') ^^^ d'⟩ : Block) = _
  rw [hcolumn, hcolumn, hcolumn, hcolumn]

/-- What undoes a change of each column undoes it for the block. -/
theorem mapColumns_mapColumns {f g : Column → Column} (h : ∀ x, g (f x) = x) (x : Block) :
    (x.mapColumns f).mapColumns g = x := by
  obtain ⟨a, b, c, d⟩ := x
  simp only [Block.mapColumns, h]

theorem unconfuse_confuse (x : Block) : unconfuse (confuse x) = x := by
  have hcolumn : ∀ y : Column, (y.map substitute).map unsubstitute = y := by
    rintro ⟨a, b, c, d⟩
    simp only [Column.map, unsubstitute_substitute]
  rw [confuse, unconfuse, unshiftRows_shiftRows]
  exact mapColumns_mapColumns hcolumn x

/-- **The rounds are undone**, the last one first. -/
theorem unrounds_rounds (ks : RoundKeys) (x : Block) : unrounds ks (rounds ks x) = x := by
  induction ks generalizing x with
  | nil => rfl
  | cons k ks ih =>
    cases ks with
    | nil =>
      show unconfuse ((confuse x ^^^ k) ^^^ k) = x
      rw [xor_xor_block, unconfuse_confuse]
    | cons k' ks =>
      show unconfuse ((unrounds (k' :: ks) (rounds (k' :: ks)
        ((confuse x).mapColumns mixColumn ^^^ k)) ^^^ k).mapColumns unmixColumn) = x
      rw [ih, xor_xor_block, mapColumns_mapColumns unmixColumn_mixColumn, unconfuse_confuse]

/-- **Deciphering undoes enciphering**, under any list of round keys. -/
theorem decipher_encipher (keys : RoundKeys) (x : Block) :
    decipher keys (encipher keys x) = x := by
  cases keys with
  | nil => rfl
  | cons k ks => rw [encipher, decipher, unrounds_rounds, xor_xor_block]

instance : Finite Column := by
  refine Finite.of_injective (fun x : Column => (x.a, x.b, x.c, x.d)) ?_
  rintro ⟨a, b, c, d⟩ ⟨a', b', c', d'⟩ h
  simpa using h

instance : Finite Block := by
  refine Finite.of_injective (fun x : Block => (x.c0, x.c1, x.c2, x.c3)) ?_
  rintro ⟨a, b, c, d⟩ ⟨a', b', c', d'⟩ h
  simpa using h

/-- **Enciphering undoes deciphering**: there are as many blocks on either side. -/
theorem encipher_decipher (keys : RoundKeys) (x : Block) :
    encipher keys (decipher keys x) = x := by
  have hinj : Function.Injective (encipher keys) :=
    Function.LeftInverse.injective (decipher_encipher keys)
  obtain ⟨y, rfl⟩ := Finite.surjective_of_injective hinj x
  rw [decipher_encipher]

/-! ## 5. Keystreams -/

/-- As many bytes come out as were asked for. -/
theorem length_keystream (keys : RoundKeys) (counter : Nat → Block) (n : Nat) :
    (keystream keys counter n).length = n := by
  rw [keystream, List.length_take, Bytes.length_flatMap fun i => Block.length_toBytes _,
    List.length_range]
  omega

end Envelope.Aes

/-
# The block cipher

AES with keys of 16 and 32 bytes.  A key is expanded once into a list of round keys; a block is then
taken through the rounds by recursion on that list, and deciphering is recursion on the *same* list,
each round undoing its own.  Written this way the two directions meet at every round key, and that
deciphering undoes enciphering is an induction on the list with one step per layer.

## Contents

1. the layers of a round and their inverses;
2. the rounds, in both directions;
3. the expansion of a key;
4. keystreams: the cipher run over a sequence of counter blocks.
-/
import Envelope.Block
import Envelope.Aes.Field
import Envelope.Aes.Substitution

namespace Envelope.Aes

/-! ## 1. Layers -/

/-- One column times the polynomial `3 x³ + x² + x + 2`. -/
def mixColumn (x : Column) : Column :=
  ⟨twice x.a ^^^ thrice x.b ^^^ x.c ^^^ x.d,
   x.a ^^^ twice x.b ^^^ thrice x.c ^^^ x.d,
   x.a ^^^ x.b ^^^ twice x.c ^^^ thrice x.d,
   thrice x.a ^^^ x.b ^^^ x.c ^^^ twice x.d⟩

/-- One column times the inverse polynomial `11 x³ + 13 x² + 9 x + 14`. -/
def unmixColumn (x : Column) : Column :=
  ⟨times14 x.a ^^^ times11 x.b ^^^ times13 x.c ^^^ times9 x.d,
   times9 x.a ^^^ times14 x.b ^^^ times11 x.c ^^^ times13 x.d,
   times13 x.a ^^^ times9 x.b ^^^ times14 x.c ^^^ times11 x.d,
   times11 x.a ^^^ times13 x.b ^^^ times9 x.c ^^^ times14 x.d⟩

/-- Row `r` moves `r` places to the left. -/
def shiftRows (x : Block) : Block :=
  ⟨⟨x.c0.a, x.c1.b, x.c2.c, x.c3.d⟩, ⟨x.c1.a, x.c2.b, x.c3.c, x.c0.d⟩,
   ⟨x.c2.a, x.c3.b, x.c0.c, x.c1.d⟩, ⟨x.c3.a, x.c0.b, x.c1.c, x.c2.d⟩⟩

/-- Row `r` moves `r` places to the right. -/
def unshiftRows (x : Block) : Block :=
  ⟨⟨x.c0.a, x.c3.b, x.c2.c, x.c1.d⟩, ⟨x.c1.a, x.c0.b, x.c3.c, x.c2.d⟩,
   ⟨x.c2.a, x.c1.b, x.c0.c, x.c3.d⟩, ⟨x.c3.a, x.c2.b, x.c1.c, x.c0.d⟩⟩

theorem unshiftRows_shiftRows (x : Block) : unshiftRows (shiftRows x) = x := rfl

/-- Every byte is replaced, then the rows are shifted: what each round begins with. -/
def confuse (x : Block) : Block :=
  shiftRows (x.mapColumns (·.map substitute))

/-- The rows are shifted back, then every byte is put back. -/
def unconfuse (x : Block) : Block :=
  (unshiftRows x).mapColumns (·.map unsubstitute)

/-! ## 2. Rounds -/

/-- The round keys of one key, in the order in which enciphering uses them. -/
abbrev RoundKeys := List Block

/-- The rounds after the first key was added.  The last one does not mix columns. -/
def rounds : RoundKeys → Block → Block
  | [], x => x
  | [k], x => confuse x ^^^ k
  | k :: ks, x => rounds ks ((confuse x).mapColumns mixColumn ^^^ k)

/-- The rounds undone, the last one first. -/
def unrounds : RoundKeys → Block → Block
  | [], x => x
  | [k], x => unconfuse (x ^^^ k)
  | k :: ks, x => unconfuse ((unrounds ks x ^^^ k).mapColumns unmixColumn)

/-- A block enciphered. -/
def encipher : RoundKeys → Block → Block
  | [], x => x
  | k :: ks, x => rounds ks (x ^^^ k)

/-- A block deciphered. -/
def decipher : RoundKeys → Block → Block
  | [], x => x
  | k :: ks, x => unrounds ks x ^^^ k

/-! ## 3. Key expansion

The words of the expanded key come in groups as long as the key.  The first word of a group is
changed by the last word of the group before it, turned, substituted and marked with a power of `x`;
each later word is changed by the word before it.  In groups of eight words the fifth is substituted
once more. -/

/-- The words of the next group: `i` is the place of the first word listed, `previous` the word that
changes it. -/
def nextGroup (long : Bool) : (i : Nat) → (previous : Column) → List Column → List Column
  | _, _, [] => []
  | i, previous, w :: ws =>
    let w' := w ^^^ (if long ∧ i = 4 then previous.map substitute else previous)
    w' :: nextGroup long (i + 1) w' ws

/-- `n` groups, the given one first; `mark` is the power of `x` that enters the next one. -/
def groups (long : Bool) : (n : Nat) → (mark : UInt8) → List Column → List (List Column)
  | 0, _, _ => []
  | n + 1, mark, g =>
    let turned := (g.getLastD ⟨0, 0, 0, 0⟩).rotate.map substitute ^^^ ⟨mark, 0, 0, 0⟩
    g :: groups long n (twice mark) (nextGroup long 0 turned g)

/-- Four words to a round key; words left over are dropped. -/
def roundKeys : List Column → RoundKeys
  | w0 :: w1 :: w2 :: w3 :: ws => ⟨w0, w1, w2, w3⟩ :: roundKeys ws
  | _ => []

/-- **The round keys of a key**: eleven for 16 bytes, fifteen for 32. -/
def expandKey (key : Bytes) : RoundKeys :=
  let words := (key.pieces 4).map Column.ofBytes
  let long := 6 < words.length
  roundKeys ((groups long (if long then 8 else 11) 1 words).flatten.take (4 * (words.length + 7)))

/-! ## 4. Keystreams -/

/-- `n` bytes of keystream: the counter blocks for 0, 1, 2, … enciphered one after the other. -/
def keystream (keys : RoundKeys) (counter : Nat → Block) (n : Nat) : Bytes :=
  ((List.range ((n + 15) / 16)).flatMap fun i => (encipher keys (counter i)).toBytes).take n

end Envelope.Aes

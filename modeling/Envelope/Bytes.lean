/-
# Byte strings and the integers written in them

Everything this library seals, opens or parses is a list of bytes.  Lengths and counters stand in
headers most significant byte first; the stream cipher and its authenticator write theirs least
significant byte first.  Both directions of both orders are here, together with the two operations
every mode of operation needs: the bytewise exclusive or, and the cut into pieces of one width.

Reading a number from a byte string never fails: it reads all the bytes it is given.  Whether there
are enough of them is decided where the bytes are taken (`Source`).
-/

namespace Envelope

/-- A byte string. -/
abbrev Bytes := List UInt8

namespace Bytes

/-! ## 1. Least significant byte first -/

/-- The `width` low bytes of `n`, least significant first; higher bytes are dropped. -/
def ofNatLE : (width n : Nat) → Bytes
  | 0, _ => []
  | width + 1, n => UInt8.ofNat n :: ofNatLE width (n / 256)

/-- The number a byte string writes, least significant byte first. -/
def toNatLE : Bytes → Nat
  | [] => 0
  | b :: bs => b.toNat + 256 * toNatLE bs

@[simp] theorem length_ofNatLE (width n : Nat) : (ofNatLE width n).length = width := by
  induction width generalizing n with
  | zero => rfl
  | succ width ih => simp [ofNatLE, ih]

/-! ## 2. Most significant byte first -/

/-- The `width` low bytes of `n`, most significant first; higher bytes are dropped. -/
def ofNatBE (width n : Nat) : Bytes :=
  (ofNatLE width n).reverse

/-- The number a byte string writes, most significant byte first. -/
def toNatBE (bs : Bytes) : Nat :=
  toNatLE bs.reverse

@[simp] theorem length_ofNatBE (width n : Nat) : (ofNatBE width n).length = width := by
  rw [ofNatBE, List.length_reverse, length_ofNatLE]

/-- A signed 32-bit number in two's complement, most significant byte first. -/
def ofInt32 (i : Int) : Bytes :=
  ofNatBE 4 (i % 0x100000000).toNat

/-- The signed number four bytes write in two's complement, most significant byte first. -/
def toInt32 (bs : Bytes) : Int :=
  let n := toNatBE bs
  if n < 0x80000000 then n else (n : Int) - 0x100000000

/-! ## 3. Cutting, filling and combining -/

/-- The bytewise exclusive or, as long as the shorter of the two. -/
def xor (a b : Bytes) : Bytes :=
  List.zipWith (· ^^^ ·) a b

/-- `n` zero bytes. -/
def zeros (n : Nat) : Bytes :=
  List.replicate n 0

/-- The zero bytes that bring `bs` to a multiple of `width`. -/
def fill (width : Nat) (bs : Bytes) : Bytes :=
  zeros ((width - bs.length % width) % width)

/-- Consecutive pieces of `width` bytes; the last one may be shorter. -/
def pieces (width : Nat) (bs : Bytes) : List Bytes :=
  if _h : 0 < width ∧ 0 < bs.length then bs.take width :: pieces width (bs.drop width)
  else []
termination_by bs.length
decreasing_by
  simp only [List.length_drop]
  omega

end Bytes

end Envelope

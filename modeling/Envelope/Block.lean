/-
# Blocks of sixteen bytes

The block cipher works on four columns of four bytes, and every mode built on it works on whole
blocks.  A `Block` therefore has its sixteen bytes in its type: `toBytes` always gives sixteen, and
`ofBytes` takes as many as there are and fills up with zeros, which is what the authenticators want
of the last, shorter piece of a message.
-/
import Envelope.Bytes

namespace Envelope

/-- Four bytes, top to bottom: a column of a block and a word of a key. -/
structure Column where
  a : UInt8
  b : UInt8
  c : UInt8
  d : UInt8
  deriving DecidableEq, Repr

namespace Column

/-- The bytewise exclusive or. -/
def xor (x y : Column) : Column :=
  ⟨x.a ^^^ y.a, x.b ^^^ y.b, x.c ^^^ y.c, x.d ^^^ y.d⟩

instance : XorOp Column := ⟨Column.xor⟩

/-- The same change to each byte. -/
def map (f : UInt8 → UInt8) (x : Column) : Column :=
  ⟨f x.a, f x.b, f x.c, f x.d⟩

/-- The bytes one place up, the first one last. -/
def rotate (x : Column) : Column :=
  ⟨x.b, x.c, x.d, x.a⟩

/-- The first four bytes, with zeros for those that are missing. -/
def ofBytes : Bytes → Column
  | a :: b :: c :: d :: _ => ⟨a, b, c, d⟩
  | [a, b, c] => ⟨a, b, c, 0⟩
  | [a, b] => ⟨a, b, 0, 0⟩
  | [a] => ⟨a, 0, 0, 0⟩
  | [] => ⟨0, 0, 0, 0⟩

/-- The four bytes, top to bottom. -/
def toBytes (x : Column) : Bytes :=
  [x.a, x.b, x.c, x.d]

end Column

/-- Sixteen bytes, as four columns from left to right. -/
structure Block where
  c0 : Column
  c1 : Column
  c2 : Column
  c3 : Column
  deriving DecidableEq, Repr

namespace Block

/-- The bytewise exclusive or. -/
def xor (x y : Block) : Block :=
  ⟨x.c0 ^^^ y.c0, x.c1 ^^^ y.c1, x.c2 ^^^ y.c2, x.c3 ^^^ y.c3⟩

instance : XorOp Block := ⟨Block.xor⟩

/-- The same change to each column. -/
def mapColumns (f : Column → Column) (x : Block) : Block :=
  ⟨f x.c0, f x.c1, f x.c2, f x.c3⟩

/-- The first sixteen bytes, with zeros for those that are missing. -/
def ofBytes (bs : Bytes) : Block :=
  ⟨.ofBytes bs, .ofBytes (bs.drop 4), .ofBytes (bs.drop 8), .ofBytes (bs.drop 12)⟩

/-- The sixteen bytes, column after column. -/
def toBytes (x : Block) : Bytes :=
  x.c0.toBytes ++ x.c1.toBytes ++ x.c2.toBytes ++ x.c3.toBytes

/-- The block of sixteen zero bytes. -/
def zero : Block := ofBytes []

/-- The number below `2 ^ 128` that a block writes, most significant byte first. -/
def toNat (x : Block) : Nat := x.toBytes.toNatBE

/-- The block that writes a number modulo `2 ^ 128`, most significant byte first. -/
def ofNat (n : Nat) : Block := ofBytes (Bytes.ofNatBE 16 n)

/-- A message cut into blocks, the last one filled up with zeros. -/
def ofMessage (bs : Bytes) : List Block :=
  (bs.pieces 16).map ofBytes

@[simp] theorem length_toBytes (x : Block) : x.toBytes.length = 16 := rfl

end Block

end Envelope

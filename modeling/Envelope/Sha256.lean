/-
# SHA-256

A message is padded to whole blocks of 64 bytes, and each block drives the eight-word state through
64 steps.  The state is a structure of eight words rather than an array, so that the digest has its
32 bytes by construction.
-/
import Envelope.Bytes

namespace Envelope.Sha256

/-! ## 1. Words -/

/-- Rotation to the right. -/
def rotateRight (x : UInt32) (n : UInt32) : UInt32 :=
  (x >>> n) ||| (x <<< (32 - n))

/-- The change that word `t - 15` brings to word `t` of the schedule. -/
def scheduleEarly (x : UInt32) : UInt32 :=
  rotateRight x 7 ^^^ rotateRight x 18 ^^^ (x >>> 3)

/-- The change that word `t - 2` brings to word `t` of the schedule. -/
def scheduleLate (x : UInt32) : UInt32 :=
  rotateRight x 17 ^^^ rotateRight x 19 ^^^ (x >>> 10)

/-- The first 32 bits of the fractional parts of the cube roots of the first 64 primes. -/
def stepConstants : List UInt32 := [
    0x428a2f98, 0x71374491, 0xb5c0fbcf, 0xe9b5dba5, 0x3956c25b, 0x59f111f1, 0x923f82a4, 0xab1c5ed5,
    0xd807aa98, 0x12835b01, 0x243185be, 0x550c7dc3, 0x72be5d74, 0x80deb1fe, 0x9bdc06a7, 0xc19bf174,
    0xe49b69c1, 0xefbe4786, 0x0fc19dc6, 0x240ca1cc, 0x2de92c6f, 0x4a7484aa, 0x5cb0a9dc, 0x76f988da,
    0x983e5152, 0xa831c66d, 0xb00327c8, 0xbf597fc7, 0xc6e00bf3, 0xd5a79147, 0x06ca6351, 0x14292967,
    0x27b70a85, 0x2e1b2138, 0x4d2c6dfc, 0x53380d13, 0x650a7354, 0x766a0abb, 0x81c2c92e, 0x92722c85,
    0xa2bfe8a1, 0xa81a664b, 0xc24b8b70, 0xc76c51a3, 0xd192e819, 0xd6990624, 0xf40e3585, 0x106aa070,
    0x19a4c116, 0x1e376c08, 0x2748774c, 0x34b0bcb5, 0x391c0cb3, 0x4ed8aa4a, 0x5b9cca4f, 0x682e6ff3,
    0x748f82ee, 0x78a5636f, 0x84c87814, 0x8cc70208, 0x90befffa, 0xa4506ceb, 0xbef9a3f7, 0xc67178f2]

/-! ## 2. One block -/

/-- The eight words that a message has been hashed to so far. -/
structure State where
  a : UInt32
  b : UInt32
  c : UInt32
  d : UInt32
  e : UInt32
  f : UInt32
  g : UInt32
  h : UInt32
  deriving DecidableEq, Repr

namespace State

/-- The state before the first block: the first 32 bits of the fractional parts of the square roots
of the first eight primes. -/
def initial : State :=
  ⟨0x6a09e667, 0xbb67ae85, 0x3c6ef372, 0xa54ff53a, 0x510e527f, 0x9b05688c, 0x1f83d9ab, 0x5be0cd19⟩

/-- Word by word addition. -/
def add (s t : State) : State :=
  ⟨s.a + t.a, s.b + t.b, s.c + t.c, s.d + t.d, s.e + t.e, s.f + t.f, s.g + t.g, s.h + t.h⟩

/-- One step, with its constant and its word of the schedule added together. -/
def step (s : State) (input : UInt32) : State :=
  let choose := (s.e &&& s.f) ^^^ (~~~s.e &&& s.g)
  let majority := (s.a &&& s.b) ^^^ (s.a &&& s.c) ^^^ (s.b &&& s.c)
  let fromE := rotateRight s.e 6 ^^^ rotateRight s.e 11 ^^^ rotateRight s.e 25
  let fromA := rotateRight s.a 2 ^^^ rotateRight s.a 13 ^^^ rotateRight s.a 22
  let t1 := s.h + fromE + choose + input
  ⟨t1 + fromA + majority, s.a, s.b, s.c, s.d + t1, s.e, s.f, s.g⟩

/-- The digest a state stands for: its words, most significant byte first. -/
def toBytes (s : State) : Bytes :=
  [s.a, s.b, s.c, s.d, s.e, s.f, s.g, s.h].flatMap fun w => Bytes.ofNatBE 4 w.toNat

end State

/-- The schedule from its last sixteen words: `n` words, each followed by what the window yields
next. -/
def schedule : (n : Nat) → (window : List UInt32) → List UInt32
  | 0, _ => []
  | _, [] => []
  | n + 1, w :: window =>
    let next := w + scheduleEarly (window.getD 0 0) + window.getD 8 0 +
      scheduleLate (window.getD 13 0)
    w :: schedule n (window ++ [next])

/-- The state after one more block of 64 bytes. -/
def compress (s : State) (block : Bytes) : State :=
  let words := (block.pieces 4).map fun p => UInt32.ofNat p.toNatBE
  s.add ((List.zipWith (· + ·) stepConstants (schedule 64 words)).foldl State.step s)

/-! ## 3. Messages -/

/-- **Padding to whole blocks**: a bit that is set, as few zeros as possible, and the length of the
message in bits as an eight-byte number. -/
def pad (message : Bytes) : Bytes :=
  message ++ [0x80] ++ Bytes.zeros ((119 - message.length % 64) % 64) ++
    Bytes.ofNatBE 8 (8 * message.length)

/-- The 32-byte digest of a message. -/
def digest (message : Bytes) : Bytes :=
  ((pad message).pieces 64).foldl compress State.initial |>.toBytes

end Envelope.Sha256

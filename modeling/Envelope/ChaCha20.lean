/-
# The ChaCha20 keystream

A block of keystream is a function of the key, the nonce and a block counter: sixteen words are
stirred by twenty rounds and added to what they were.  The state is a vector of sixteen words, and a
quarter round names the four it works on.
-/
import Envelope.Bytes

namespace Envelope.ChaCha20

/-- The sixteen words of a block. -/
abbrev State := Vector UInt32 16

/-- Rotation to the left. -/
def rotateLeft (x : UInt32) (n : UInt32) : UInt32 :=
  (x <<< n) ||| (x >>> (32 - n))

/-- Four additions, exclusive ors and rotations over four of the sixteen words. -/
def quarterRound (s : State) (a b c d : Fin 16) : State :=
  let s := s.set a (s[a] + s[b])
  let s := s.set d (rotateLeft (s[d] ^^^ s[a]) 16)
  let s := s.set c (s[c] + s[d])
  let s := s.set b (rotateLeft (s[b] ^^^ s[c]) 12)
  let s := s.set a (s[a] + s[b])
  let s := s.set d (rotateLeft (s[d] ^^^ s[a]) 8)
  let s := s.set c (s[c] + s[d])
  s.set b (rotateLeft (s[b] ^^^ s[c]) 7)

/-- Two rounds: the four columns, then the four diagonals. -/
def doubleRound (s : State) : State :=
  let s := quarterRound s 0 4 8 12
  let s := quarterRound s 1 5 9 13
  let s := quarterRound s 2 6 10 14
  let s := quarterRound s 3 7 11 15
  let s := quarterRound s 0 5 10 15
  let s := quarterRound s 1 6 11 12
  let s := quarterRound s 2 7 8 13
  quarterRound s 3 4 9 14

/-- `n` times the two rounds. -/
def stir : (n : Nat) → State → State
  | 0, s => s
  | n + 1, s => stir n (doubleRound s)

/-- Word `i` of a byte string, least significant byte first. -/
def word (bs : Bytes) (i : Nat) : UInt32 :=
  UInt32.ofNat (Bytes.toNatLE ((bs.drop (4 * i)).take 4))

/-- The words before stirring: four constants, the key, the counter and the nonce. -/
def start (key nonce : Bytes) (counter : Nat) : State :=
  #v[0x61707865, 0x3320646e, 0x79622d32, 0x6b206574,
     word key 0, word key 1, word key 2, word key 3,
     word key 4, word key 5, word key 6, word key 7,
     UInt32.ofNat counter, word nonce 0, word nonce 1, word nonce 2]

/-- The 64 bytes of keystream for one value of the counter. -/
def block (key nonce : Bytes) (counter : Nat) : Bytes :=
  let s := start key nonce counter
  (Vector.zipWith (· + ·) s (stir 10 s)).toList.flatMap fun w => Bytes.ofNatLE 4 w.toNat

/-- `n` bytes of keystream, from the block with counter `first` on. -/
def keystream (key nonce : Bytes) (first n : Nat) : Bytes :=
  ((List.range ((n + 63) / 64)).flatMap fun i => block key nonce (first + i)).take n

end Envelope.ChaCha20

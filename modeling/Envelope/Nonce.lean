/-
# Sources of nonces

Every sealing needs a nonce that was not used before under the same key.  A source either counts,
draws at random, or is its owner's own; it always announces the length of what it hands out, so that
a mismatch with the cipher is found when the two are brought together and not when the first message
is sealed.

A counted nonce is a fixed part followed by eight bytes of counter, most significant first.  The
counter never wraps: its largest value is not handed out, and from there on the source fails.
Random bytes are not drawn here.  A random source holds what its draws will come to, bytes or a
failure, which is all that an operation can observe of chance.  A source of the owner's own may
answer anything: any bytes, whatever it announces, and any failure, whatever that is about.
-/
import Envelope.Error
import Envelope.Bytes

namespace Envelope

/-- A nonce of this length can stand in both header layouts. -/
def checkNonceLength (length : Nat) : Except Failure Unit :=
  if length = 0 ∨ maxNonce < length then .error (.config (.nonceLength length)) else .ok ()

/-- A source of nonces, with what is left in it. -/
inductive NonceSource where
  /-- A fixed part and the next value of the counter. -/
  | counted (fixedPart : Bytes) (next : Nat)
  /-- Nonces of one length, and what the next draws come to: some bytes of chance, or the reason why
  there are none. -/
  | random (length : Nat) (draws : List (Except String Bytes))
  /-- A source of the owner's own: the length it announces, what it answers to the next calls, and
  what to every call after these. -/
  | own (announced : Nat) (answers : List (Except Failure Bytes))
      (afterwards : Except Failure Bytes)
  deriving Repr

namespace NonceSource

/-- The first counter value that is not handed out. -/
def counterEnd : Nat := 0xffffffffffffffff

/-- A counted source, if its nonces have an admissible length. -/
def startingAt (fixedPart : Bytes) (start : Nat) : Except Failure NonceSource := do
  checkNonceLength (fixedPart.length + counterWidth)
  return .counted fixedPart start

/-- A random source, if its nonces have an admissible length. -/
def drawing (length : Nat) (draws : List (Except String Bytes)) : Except Failure NonceSource := do
  checkNonceLength length
  return .random length draws

/-- Always the same bytes, with the length that is announced for them. -/
def chosen (bytes : Bytes) (announced : Nat) : NonceSource := .own announced [] (.ok bytes)

/-- The length that is announced. -/
def length : NonceSource → Nat
  | .counted fixedPart _ => fixedPart.length + counterWidth
  | .random n _ => n
  | .own announced _ _ => announced

/-- The counter value that the next nonce will carry, if the source counts. -/
def peek : NonceSource → Option Nat
  | .counted _ next => some next
  | _ => none

/-- What a draw of `n` bytes comes to.  Bytes that are not given count as zeros. -/
def drawn (n : Nat) : Except String Bytes → Except Failure Bytes
  | .ok chance => .ok (chance.take n ++ Bytes.zeros (n - chance.length))
  | .error reason => .error (.state (.noRandomness reason))

/-- An answer, and the source behind it. -/
def answering : Except Failure Bytes → EStateM Failure NonceSource Bytes
  | .ok bytes => pure bytes
  | .error f => throw f

/-- **The next nonce.**  An exhausted counter stays where it is; a draw or an answer that is a
failure is over like any other. -/
def generate : EStateM Failure NonceSource Bytes := fun source =>
  match source with
  | .counted fixedPart next =>
    if next < counterEnd then
      .ok (fixedPart ++ Bytes.ofNatBE counterWidth next) (.counted fixedPart (next + 1))
    else .error (.state .nonceExhausted) source
  | .random n draws => answering (drawn n (draws.headD (.ok []))) (.random n draws.tail)
  | .own announced answers afterwards =>
    answering (answers.headD afterwards) (.own announced answers.tail afterwards)

end NonceSource

end Envelope

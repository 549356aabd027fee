/-
# JSON texts as documents

A document is the structure of a text up to the first place where it stops being JSON.  It is total:
every text has one, and where the text breaks off, the document has `broken` and nothing after it.
This lets the shape of a value be judged in the order of the text, so that a wrong type before the
break is found first, and the break is found first when it comes before.

Escapes in strings are read in two steps for the same reason.  A string that nobody asks for only
has to end; one that is asked for must also denote a text, which a lone half of a surrogate pair
does not.
-/
import Envelope.Json.Numeral

namespace Envelope.Json

/-! ## 1. Strings -/

/-- A piece of a string: a character, or a 16-bit unit written by its number. -/
inductive Piece where
  | char (c : Char)
  | unit (n : Nat)

/-- The value of a hexadecimal digit of either case. -/
def hexValue? (c : Char) : Option Nat := Bytes.digitValue? c

/-- The unit that four hexadecimal digits write. -/
def unit? (a b c d : Char) : Option Nat := do
  return 4096 * (← hexValue? a) + 256 * (← hexValue? b) + 16 * (← hexValue? c) + (← hexValue? d)

/-- The character that a letter after a backslash stands for. -/
def escaped? : Char → Option Char
  | '"' => some '"'
  | '\\' => some '\\'
  | '/' => some '/'
  | 'b' => some '\x08'
  | 'f' => some '\x0c'
  | 'n' => some '\n'
  | 'r' => some '\r'
  | 't' => some '\t'
  | _ => none

/-- The pieces of a string after its opening quote, and the text after the closing one; `none` when
it has a bare control character or an unknown escape, or does not end. -/
def pieces? : List Char → Option (List Piece × List Char)
  | [] => none
  | '"' :: rest => some ([], rest)
  | '\\' :: 'u' :: a :: b :: c :: d :: rest => do
    let n ← unit? a b c d
    let (ps, rest) ← pieces? rest
    return (.unit n :: ps, rest)
  | '\\' :: c :: rest => do
    let e ← escaped? c
    let (ps, rest) ← pieces? rest
    return (.char e :: ps, rest)
  | c :: rest =>
    if c.toNat < 0x20 then none
    else do
      let (ps, rest) ← pieces? rest
      return (.char c :: ps, rest)

/-- The text that pieces denote: units from the surrogate range stand in pairs. -/
def assemble? : List Piece → Option (List Char)
  | [] => some []
  | .char c :: ps => (assemble? ps).map (c :: ·)
  | .unit high :: .unit low :: ps =>
    if 0xd800 ≤ high ∧ high < 0xdc00 then
      if 0xdc00 ≤ low ∧ low < 0xe000 then
        (assemble? ps).map (Char.ofNat (0x10000 + 0x400 * (high - 0xd800) + (low - 0xdc00)) :: ·)
      else none
    else if 0xdc00 ≤ high ∧ high < 0xe000 then none
    else (assemble? (.unit low :: ps)).map (Char.ofNat high :: ·)
  | .unit n :: ps =>
    if 0xd800 ≤ n ∧ n < 0xe000 then none else (assemble? ps).map (Char.ofNat n :: ·)

/-! ## 2. Documents -/

/-- The structure of a text, up to the first place where it is not JSON. -/
inductive Document where
  | null
  | boolean (b : Bool)
  | number (n : Numeral)
  /-- A string; `none` when its escapes denote no text. -/
  | string (s : Option String)
  /-- The items read, and whether the closing bracket was found. -/
  | array (items : List Document) (closed : Bool)
  /-- The keys and values read, and whether the closing brace was found.  A key that is not a
  string, and a key without a value, are the last ones of an object that is not closed. -/
  | object (fields : List (Document × Document)) (closed : Bool)
  | broken

/-- Blanks between the parts of a text. -/
def isBlank (c : Char) : Bool :=
  c = ' ' ∨ c = '\t' ∨ c = '\n' ∨ c = '\r'

/-- A text without the blanks in front. -/
def skipBlanks (cs : List Char) : List Char := cs.dropWhile isBlank

mutual

/-- The document at the front of a text, and the rest. -/
def readValue : (fuel : Nat) → List Char → Document × List Char
  | 0, cs => (.broken, cs)
  | fuel + 1, cs =>
    match skipBlanks cs with
    | 'n' :: 'u' :: 'l' :: 'l' :: rest => (.null, rest)
    | 't' :: 'r' :: 'u' :: 'e' :: rest => (.boolean true, rest)
    | 'f' :: 'a' :: 'l' :: 's' :: 'e' :: rest => (.boolean false, rest)
    | '"' :: rest =>
      match pieces? rest with
      | none => (.broken, [])
      | some (ps, rest) => (.string ((assemble? ps).map String.ofList), rest)
    | '[' :: rest =>
      match skipBlanks rest with
      | ']' :: rest => (.array [] true, rest)
      | rest =>
        let (items, closed, rest) := readItems fuel rest
        (.array items closed, rest)
    | '{' :: rest =>
      match skipBlanks rest with
      | '}' :: rest => (.object [] true, rest)
      | rest =>
        let (fields, closed, rest) := readFields fuel rest
        (.object fields closed, rest)
    | rest =>
      match Numeral.read? rest with
      | none => (.broken, [])
      | some (n, rest) => (.number n, rest)

/-- The items of an array from one of them on. -/
def readItems : (fuel : Nat) → List Char → List Document × Bool × List Char
  | 0, cs => ([.broken], false, cs)
  | fuel + 1, cs =>
    let (item, rest) := readValue fuel cs
    match skipBlanks rest with
    | ']' :: rest => ([item], true, rest)
    | ',' :: rest =>
      let (items, closed, rest) := readItems fuel rest
      (item :: items, closed, rest)
    | rest => ([item], false, rest)

/-- The fields of an object from a key on. -/
def readFields : (fuel : Nat) → List Char → List (Document × Document) × Bool × List Char
  | 0, cs => ([(.broken, .broken)], false, cs)
  | fuel + 1, cs =>
    match readValue fuel cs with
    | (.string key, rest) =>
      match skipBlanks rest with
      | ':' :: rest =>
        let (value, rest) := readValue fuel rest
        match skipBlanks rest with
        | '}' :: rest => ([(.string key, value)], true, rest)
        | ',' :: rest =>
          let (fields, closed, rest) := readFields fuel rest
          ((.string key, value) :: fields, closed, rest)
        | rest => ([(.string key, value)], false, rest)
      | rest => ([(.string key, .broken)], false, rest)
    | (key, rest) => ([(key, .broken)], false, rest)

end

/-- **The document of a text**, and whether only blanks follow it.  A value takes at least one
character, and a character at most three steps. -/
def Document.ofText (text : String) : Document × Bool :=
  let cs := text.toList
  let (document, rest) := readValue (3 * cs.length + 3) cs
  (document, (skipBlanks rest).isEmpty)

/-! ## 3. Parts that nobody asks for -/

mutual

/-- Whether a document is JSON to its end.  Strings need not denote a text here, nor numbers be
small enough. -/
def Document.isSound : Document → Bool
  | .array items closed => areSound items && closed
  | .object fields closed => areSoundFields fields && closed
  | .broken => false
  | _ => true

/-- Whether each item is JSON to its end. -/
def areSound : List Document → Bool
  | [] => true
  | d :: ds => d.isSound && areSound ds

/-- Whether each key and value is JSON to its end. -/
def areSoundFields : List (Document × Document) → Bool
  | [] => true
  | (key, value) :: rest => key.isSound && value.isSound && areSoundFields rest

end

end Envelope.Json

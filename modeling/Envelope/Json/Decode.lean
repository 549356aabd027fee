/-
# Values from documents

A decoder takes a document to a value or to the first problem in the order of the text.  A record
may be written as an object, whose fields come in any order and may include unknown ones, or as an
array of its fields in the order of their declaration; `Record` says what fields there are and
`Record.decode` reads both forms.
-/
import Envelope.Json.Document

namespace Envelope.Json

/-- A reading that ends at the first problem. -/
abbrev Reading (α : Type) := Except Problem α

/-! ## 1. Plain values -/

/-- What a document is called when it stands in the wrong place. -/
def Document.found : Document → Reading Found
  | .null => .ok .null
  | .boolean b => .ok (.boolean b)
  | .number n =>
    match n.value? with
    | some v => .ok v.found
    | none => .error .malformed
  | .string (some s) => .ok (.string s)
  | .array .. => .ok .sequence
  | .object .. => .ok .map
  | _ => .error .malformed

/-- The problem of a document that stands where another kind was wanted. -/
def wrongType {α : Type} (d : Document) (expected : String) : Reading α := do
  throw (.invalidType (← d.found) expected)

/-- A string. -/
def decodeText (d : Document) : Reading String :=
  match d with
  | .string (some s) => .ok s
  | _ => wrongType d "a string"

/-- A whole number from zero up to a bound. -/
def decodeNat (bound : Nat) (expected : String) (d : Document) : Reading Nat :=
  match d with
  | .number n =>
    match n.value? with
    | some (.integer i) =>
      if 0 ≤ i ∧ i ≤ bound then .ok i.toNat else .error (.invalidValue (.integer i) expected)
    | some v => .error (.invalidType v.found expected)
    | none => .error .malformed
  | _ => wrongType d expected

/-- A number below `2 ^ 64`. -/
def decodeNat64 : Document → Reading Nat := decodeNat 0xffffffffffffffff "u64"

/-- A number below `2 ^ 32`. -/
def decodeNat32 : Document → Reading Nat := decodeNat 0xffffffff "u32"

/-- A count of bytes. -/
def decodeSize : Document → Reading Nat := decodeNat 0xffffffffffffffff "usize"

/-- An integer as a double. -/
def floatOfInt (i : Int) : Float :=
  Numeral.signed (i < 0) (UInt64.ofNat i.natAbs).toFloat

/-- A number of any kind. -/
def decodeFloat (d : Document) : Reading Float :=
  match d with
  | .number n =>
    match n.value? with
    | some (.integer i) => .ok (floatOfInt i)
    | some (.real x) => .ok x
    | none => .error .malformed
  | _ => wrongType d "f64"

/-! ## 2. Alternatives -/

/-- One of some names, each standing for a value. -/
def variant {α : Type} (known : List (String × α)) (name : String) : Reading α :=
  match known.lookup name with
  | some a => .ok a
  | none => .error (.unknownVariant name (known.map (·.1)))

/-- **One of some names**: as a string, or as the only key of an object whose value is null.  A key
that is not a string cannot be named. -/
def decodeVariant {α : Type} (known : List (String × α)) : Document → Reading α
  | .string (some name) => variant known name
  | .object ((.string (some name), value) :: rest) closed => do
    let a ← variant known name
    match value with
    | .null => if rest.isEmpty && closed then return a else throw .malformed
    | _ => wrongType value "unit"
  | _ => .error .malformed

/-- Null, or a value. -/
def decodeOptional {α : Type} (decode : Document → Reading α) : Document → Reading (Option α)
  | .null => .ok none
  | d => (decode d).map some

/-! ## 3. Records -/

/-- A field: what it is called, whether it may be left out, and how its value enters the record. -/
structure Field (α : Type) where
  name : String
  mayLack : Bool
  enter : Document → α → Reading α

/-- A kind of record: what it is called, what it is before any field is read, and its fields in
order of declaration. -/
structure Record (α : Type) where
  /-- What a value of another kind is said to be in the place of. -/
  expected : String
  /-- What an array that is too short is said to be in the place of. -/
  expectedLength : String
  /-- Whether unknown fields are passed over. -/
  isOpen : Bool
  blank : α
  fields : List (Field α)

namespace Record

variable {α : Type} (r : Record α)

/-- The fields of an object, in the order of the text; `seen` are those read already. -/
def enterFields : List (Document × Document) → (seen : List String) → α → Reading (List String × α)
  | [], seen, a => .ok (seen, a)
  | (key, value) :: rest, seen, a =>
    match key with
    | .string (some name) =>
      match r.fields.find? (·.name = name) with
      | some field =>
        if name ∈ seen then .error (.duplicateField name)
        else do enterFields rest (name :: seen) (← field.enter value a)
      | none => if r.isOpen && value.isSound then enterFields rest seen a else .error .malformed
    | _ => .error .malformed

/-- The items of an array, each for the field of its place. -/
def enterItems : (read : Nat) → List (Field α) → List Document → (closed : Bool) → α → Reading α
  | _, [], items, closed, a => if items.isEmpty && closed then .ok a else .error .malformed
  | read, field :: fields, item :: items, closed, a => do
    enterItems (read + 1) fields items closed (← field.enter item a)
  | read, field :: fields, [], closed, a =>
    if !closed then .error .malformed
    else if field.mayLack then enterItems (read + 1) fields [] closed a
    else .error (.invalidLength read r.expectedLength)

/-- **A record**, from an object or from an array. -/
def decode : Document → Reading α
  | .object fields closed => do
    let (seen, a) ← r.enterFields fields [] r.blank
    if !closed then throw .malformed
    match r.fields.find? fun f => !f.mayLack && f.name ∉ seen with
    | some f => throw (.missingField f.name)
    | none => return a
  | .array items closed => r.enterItems 0 r.fields items closed r.blank
  | d => wrongType d r.expected

end Record

/-- A map from keys to values, in the order of the text. -/
def decodeMap {κ α : Type} (decodeKey : String → Reading κ) (decodeValue : Document → Reading α)
    (d : Document) : Reading (List (κ × α)) :=
  match d with
  | .object fields closed => do
    let entries ← fields.mapM fun (key, value) => do
      match key with
      | .string (some name) => return (← decodeKey name, ← decodeValue value)
      | _ => throw .malformed
    if closed then return entries else throw .malformed
  | _ => wrongType d "a map"

/-- **A value from a whole text.**  Nothing but blanks may follow it. -/
def decodeAll {α : Type} (decode : Document → Reading α) (text : String) : Reading α := do
  let (document, atEnd) := Document.ofText text
  let a ← decode document
  if atEnd then return a else throw .malformed

end Envelope.Json

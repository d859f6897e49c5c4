import ReviewMentor.Json.Numeral
import ReviewMentor.Text.Utf8

/-!
# Decoding

Reading typed values from drafts. A text can fail in two ways: it is no JSON, or it is JSON of the
wrong shape. When both happen, the fault that comes first in the text counts, so every reader works
through a draft in the order of the text.

A record is read from an object, member by member: a known name may stand once, and members with
other names are only required to be well formed. A record may also be written as the array of its
fields in their order.
-/

namespace ReviewMentor.Json

/-- What is wrong with a text. -/
inductive Fault where
  /-- The text is no JSON, or a number or a string in it has no value. -/
  | malformed
  /-- The text is JSON, but of another shape. -/
  | shape
deriving DecidableEq, Repr

/-- A reader of typed values. -/
abbrev Decode (α : Type) := Draft → Except Fault α

namespace Draft

mutual

/-- Whether a draft has no fault in its brackets. -/
def isWhole : Draft → Bool
  | array items => allWhole items
  | object members => membersWhole members
  | broken => false
  | _ => true

/-- Whether no item has a fault in its brackets. -/
def allWhole : List Draft → Bool
  | [] => true
  | d :: rest => isWhole d && allWhole rest

/-- Whether no member has a fault in its brackets. -/
def membersWhole : List (List Piece × Draft) → Bool
  | [] => true
  | (_, d) :: rest => isWhole d && membersWhole rest

end

/-- The fault of a draft that is not of the expected kind. -/
def mistyped : Draft → Fault
  | number digits => if (number? digits).isSome then .shape else .malformed
  | string pieces => if (joinPieces? pieces).isSome then .shape else .malformed
  | broken => .malformed
  | _ => .shape

/-- The text of the pieces of a string. -/
def pieceText (pieces : List Piece) : Except Fault String :=
  match joinPieces? pieces with
  | some cs => .ok (String.ofList cs)
  | none => .error .malformed

/-- Reads a string. -/
def text : Decode String
  | string pieces => pieceText pieces
  | d => .error d.mistyped

/-- Reads a truth value. -/
def truth : Decode Bool
  | bool b => .ok b
  | d => .error d.mistyped

/-- Reads a whole number between two bounds. -/
def whole (least greatest : Int) : Decode Int
  | number digits =>
    match number? digits with
    | none => .error .malformed
    | some (.int n) => if least ≤ n ∧ n ≤ greatest then .ok n else .error .shape
    | some (.real _) => .error .shape
  | d => .error d.mistyped

/-- Reads a natural number below a power of two. -/
def natural (bits : Nat) (d : Draft) : Except Fault Nat :=
  (d.whole 0 (2 ^ bits - 1)).map Int.toNat

/-- Reads a number in single precision; one that is not finite has no value. -/
def single : Decode (Option Decimal.Binary)
  | number digits =>
    match number? digits with
    | none => .error .malformed
    | some (.real b) => .ok (b.convert? .single)
    | some (.int n) => .ok (Decimal.Binary.ofRatio? .single (n < 0) n.natAbs 1)
  | real value => .ok (value.bind fun b => b.convert? .single)
  | d => .error d.mistyped

/-- Reads a value that may be `null`. -/
def nullable (read : Decode α) : Decode (Option α)
  | null => .ok none
  | d => (read d).map some

/-- Reads the items of an array in their order. -/
def items (read : Decode α) : List Draft → Except Fault (List α)
  | [] => .ok []
  | d :: rest => do
    let a ← read d
    let as ← items read rest
    pure (a :: as)

/-- Reads an array. -/
def list (read : Decode α) : Decode (List α)
  | array ds => items read ds
  | d => .error d.mistyped

/-- Reads the members of an object in their order. -/
def entries (read : Decode α) : List (List Piece × Draft) → Except Fault (List (String × α))
  | [] => .ok []
  | (name, d) :: rest => do
    let name ← pieceText name
    let a ← read d
    let as ← entries read rest
    pure ((name, a) :: as)

/-- Reads an object with any names. -/
def table (read : Decode α) : Decode (List (String × α))
  | object members => entries read members
  | d => .error d.mistyped

/-- Reads one of a set of words; it may also be written as an object with `null` as its value. -/
def word (named : String → Option α) : Decode α
  | string pieces => do
    match named (← pieceText pieces) with
    | some a => pure a
    | none => .error .shape
  | object ((pieces, d) :: rest) => do
    match named (← pieceText pieces) with
    | none => .error .shape
    | some a =>
      match d with
      | null => if rest.isEmpty then pure a else .error .malformed
      | d => .error d.mistyped
  | _ => .error .malformed

end Draft

/-- A reader of records. `Slots` holds the fields that have been read so far. -/
structure Record (α : Type) where
  Slots : Type
  empty : Slots
  /-- What a member adds; nothing if its name is unknown. -/
  put : String → Draft → Slots → Option (Except Fault Slots)
  build : Slots → Except Fault α
  /-- Reads the fields from the front of an array. -/
  take : List Draft → Except Fault (α × List Draft)

namespace Record

/-- A record without fields. -/
def start (a : α) : Record α where
  Slots := Unit
  empty := ()
  put _ _ _ := none
  build _ := .ok a
  take ds := .ok (a, ds)

/-- A record of one field. The defaults are for an object without it and for a short array. -/
def field (names : List String) (read : Decode α) (missing? cutOff? : Option α) : Record α where
  Slots := Option α
  empty := none
  put name d slot :=
    if name ∈ names then
      some (if slot.isSome then .error .shape else (read d).map some)
    else none
  build
    | some a => .ok a
    | none => match missing? with
      | some a => .ok a
      | none => .error .shape
  take
    | d :: rest => (read d).map fun a => (a, rest)
    | [] => match cutOff? with
      | some a => .ok (a, [])
      | none => .error .shape

/-- One record after another. -/
def and (r : Record (α → β)) (s : Record α) : Record β where
  Slots := r.Slots × s.Slots
  empty := (r.empty, s.empty)
  put name d slots :=
    match r.put name d slots.1 with
    | some result => some (result.map fun slot => (slot, slots.2))
    | none => (s.put name d slots.2).map fun result => result.map fun slot => (slots.1, slot)
  build slots := do
    let f ← r.build slots.1
    let a ← s.build slots.2
    pure (f a)
  take ds := do
    let (f, ds) ← r.take ds
    let (a, ds) ← s.take ds
    pure (f a, ds)

/-- A field that has to be present, under one of its names. -/
def needs (r : Record (α → β)) (names : List String) (read : Decode α) : Record β :=
  r.and (field names read none none)

/-- A field that may be absent. -/
def defaults (r : Record (α → β)) (name : String) (read : Decode α) (value : α) : Record β :=
  r.and (field [name] read (some value) (some value))

/-- A field that may be `null`, or absent from an object. -/
def allows (r : Record (Option α → β)) (name : String) (read : Decode α) : Record β :=
  r.and (field [name] (Draft.nullable read) (some none) none)

/-- Reads members one after another. -/
def fill (r : Record α) : r.Slots → List (List Piece × Draft) → Except Fault r.Slots
  | slots, [] => .ok slots
  | slots, (name, d) :: rest => do
    let name ← Draft.pieceText name
    match r.put name d slots with
    | some result => fill r (← result) rest
    | none => if d.isWhole then fill r slots rest else .error .malformed

/-- Reads a record. An array may be longer than the record only where `surplus` says so. -/
def readWith (surplus : Bool) (r : Record α) : Decode α
  | .object members => do r.build (← r.fill r.empty members)
  | .array ds => do
    let (a, rest) ← r.take ds
    if rest.isEmpty || surplus then pure a else .error .malformed
  | d => .error d.mistyped

/-- Reads a record from JSON. -/
def read (r : Record α) : Decode α :=
  r.readWith false

end Record

/-- The value of a text that is one JSON value and nothing else. -/
def decode (read : Decode α) (text : String) : Except Fault α :=
  match Draft.scan (text.toList.map some) with
  | ⟨d, some []⟩ => read d
  | ⟨d, _⟩ => do
    let _ ← read d
    .error .malformed

/-- The value at the front of bytes. What is no UTF-8 matters only outside strings, and in strings
whose text is needed. -/
def decodeFront (read : Decode α) (bytes : ByteArray) : Except Fault α :=
  read (Draft.scan (Text.signs bytes)).draft

end ReviewMentor.Json

import ReviewMentor.Json.Token
import ReviewMentor.Decimal.Binary

/-!
# Drafts of JSON values

A draft is a JSON text whose brackets are paired but whose numbers and strings are not interpreted
yet. A text that breaks off, or goes wrong somewhere, still has a draft: everything before the
fault, and `broken` in its place. So a reader that looks for the first fault of a text can tell
whether the text or the shape of the value goes wrong first.
-/

namespace ReviewMentor.Json

/-- A JSON text cut into nested parts. -/
inductive Draft where
  | null
  | bool (value : Bool)
  | number (digits : List Char)
  | string (pieces : List Piece)
  | array (items : List Draft)
  | object (members : List (List Piece × Draft))
  /-- A number given by its value, which may be missing; no JSON text has one. -/
  | real (value : Option Decimal.Binary)
  | broken
deriving Repr, Inhabited

/-- The name of a member whose name could not be read: it has no text. -/
def lostName : List Piece := [.stray]

/-- An array or object that is not closed yet; its parts are kept last first. The name of an object
is that of the member being read. -/
inductive Frame where
  | array (done : List Draft)
  | object (done : List (List Piece × Draft)) (name : List Piece)

/-- What may come next. -/
inductive Expect where
  | value
  | valueOrClose
  | name
  | nameOrClose
  | colon
  | commaOrClose

/-- A draft, and the tokens after it if it is whole. -/
structure Scan where
  draft : Draft
  rest? : Option (List Token)

namespace Draft

/-- The draft of everything before a fault. -/
def breakOff (d : Draft) : List Frame → Draft
  | [] => d
  | .array done :: outer => breakOff (.array (d :: done).reverse) outer
  | .object done name :: outer => breakOff (.object ((name, d) :: done).reverse) outer

/-- What a finished value is part of, unless it is the whole text. -/
def place (d : Draft) : List Frame → Option (List Frame)
  | [] => none
  | .array done :: outer => some (.array (d :: done) :: outer)
  | .object done name :: outer => some (.object ((name, d) :: done) lostName :: outer)

/-- The value that a token is by itself. -/
def ofToken? : Token → Option Draft
  | .null => some .null
  | .bool b => some (.bool b)
  | .number digits => some (.number digits)
  | .string pieces => some (.string pieces)
  | _ => none

/-- Reads tokens until the outermost value is whole. -/
def scanFrom : List Frame → Expect → List Token → Scan
  | frames, _, [] => ⟨broken.breakOff frames, none⟩
  | frames, expect, token :: rest =>
    let fault : Scan := ⟨broken.breakOff frames, none⟩
    let finish (d : Draft) (outer : List Frame) : List Frame × Option Draft :=
      match d.place outer with
      | some frames => (frames, none)
      | none => ([], some d)
    match expect, token, frames with
    | .value, .openArray, _ | .valueOrClose, .openArray, _ =>
      scanFrom (.array [] :: frames) .valueOrClose rest
    | .value, .openObject, _ | .valueOrClose, .openObject, _ =>
      scanFrom (.object [] lostName :: frames) .nameOrClose rest
    | .valueOrClose, .closeArray, .array done :: outer
    | .commaOrClose, .closeArray, .array done :: outer =>
      match finish (.array done.reverse) outer with
      | (_, some d) => ⟨d, some rest⟩
      | (frames, none) => scanFrom frames .commaOrClose rest
    | .nameOrClose, .closeObject, .object done _ :: outer
    | .commaOrClose, .closeObject, .object done _ :: outer =>
      match finish (.object done.reverse) outer with
      | (_, some d) => ⟨d, some rest⟩
      | (frames, none) => scanFrom frames .commaOrClose rest
    | .commaOrClose, .comma, .array _ :: _ => scanFrom frames .value rest
    | .commaOrClose, .comma, .object _ _ :: _ => scanFrom frames .name rest
    | .name, .string pieces, .object done _ :: outer
    | .nameOrClose, .string pieces, .object done _ :: outer =>
      scanFrom (.object done pieces :: outer) .colon rest
    | .colon, .colon, _ => scanFrom frames .value rest
    | .value, token, _ | .valueOrClose, token, _ =>
      match ofToken? token with
      | none => fault
      | some d => match finish d frames with
        | (_, some d) => ⟨d, some rest⟩
        | (frames, none) => scanFrom frames .commaOrClose rest
    | _, _, _ => fault

/-- The draft of a text, whatever follows its first value; `none` stands for bytes that are no
UTF-8. -/
def scan (text : List (Option Char)) : Scan :=
  scanFrom [] .value (tokens text)

/-- The draft of a text that is one value and nothing else. -/
def read? (text : String) : Option Draft :=
  match scan (text.toList.map some) with
  | ⟨d, some []⟩ => some d
  | _ => none

end Draft

end ReviewMentor.Json

/-!
# JSON tokens

The marks, words, numbers and strings of a JSON text. A string keeps its `\u` escapes as code
units, and keeps bytes that are no UTF-8 as stray parts, since whether a string has a text matters
only to who needs the text. Reading never fails: a text that cannot be cut into tokens ends with
the token `bad`.
-/

namespace ReviewMentor.Json

/-- A part of a string: a character, the code unit of a `\u` escape, or bytes that are no UTF-8. -/
inductive Piece where
  | char (c : Char)
  | unit (n : Nat)
  | stray
deriving DecidableEq, Repr

/-- A token of a JSON text. -/
inductive Token where
  | openArray
  | closeArray
  | openObject
  | closeObject
  | comma
  | colon
  | null
  | bool (value : Bool)
  | number (digits : List Char)
  | string (pieces : List Piece)
  | bad
deriving DecidableEq, Repr

/-- How far a number has been read. -/
inductive Phase where
  | minus
  | zero
  | whole
  | point
  | fraction
  | mark
  | sign
  | power
deriving DecidableEq, Repr

namespace Phase

/-- The phase after one more character, if that character goes on with the number. -/
def next? (p : Phase) (c : Char) : Option Phase :=
  match p with
  | minus => if c = '0' then some zero else if c.isDigit then some whole else none
  | zero =>
    if c = '.' then some point else if c = 'e' ∨ c = 'E' then some mark else none
  | whole =>
    if c.isDigit then some whole
    else if c = '.' then some point
    else if c = 'e' ∨ c = 'E' then some mark else none
  | point => if c.isDigit then some fraction else none
  | fraction =>
    if c.isDigit then some fraction else if c = 'e' ∨ c = 'E' then some mark else none
  | mark =>
    if c = '+' ∨ c = '-' then some sign else if c.isDigit then some power else none
  | sign => if c.isDigit then some power else none
  | power => if c.isDigit then some power else none

/-- Whether a number may end here. -/
def mayEnd : Phase → Bool
  | zero | whole | fraction | power => true
  | minus | point | mark | sign => false

end Phase

/-- What has been read of the current token; characters and pieces are kept last first. -/
inductive Reading where
  | between
  | string (pieces : List Piece)
  | escape (pieces : List Piece)
  | hex (pieces : List Piece) (left value : Nat)
  | number (phase : Phase) (digits : List Char)
  | word (rest : List Char) (token : Token)
deriving Repr

/-- The value of a hexadecimal digit. -/
def hexDigit? (c : Char) : Option Nat :=
  if '0' ≤ c ∧ c ≤ '9' then some (c.toNat - 0x30)
  else if 'a' ≤ c ∧ c ≤ 'f' then some (c.toNat - 0x57)
  else if 'A' ≤ c ∧ c ≤ 'F' then some (c.toNat - 0x37)
  else none

/-- The character that an escape of one letter stands for. -/
def unescape? (c : Char) : Option Char :=
  match c with
  | '"' => some '"'
  | '\\' => some '\\'
  | '/' => some '/'
  | 'b' => some '\x08'
  | 'f' => some '\x0c'
  | 'n' => some '\n'
  | 'r' => some '\r'
  | 't' => some '\t'
  | _ => none

/-- Reads the first character of a token: a finished token, if it is a mark, and what follows. -/
def start? (c : Char) : Option (Option Token × Reading) :=
  match c with
  | ' ' | '\n' | '\t' | '\r' => some (none, .between)
  | '[' => some (some .openArray, .between)
  | ']' => some (some .closeArray, .between)
  | '\x7b' => some (some .openObject, .between)
  | '\x7d' => some (some .closeObject, .between)
  | ',' => some (some .comma, .between)
  | ':' => some (some .colon, .between)
  | '"' => some (none, .string [])
  | 'n' => some (none, .word ['u', 'l', 'l'] .null)
  | 't' => some (none, .word ['r', 'u', 'e'] (.bool true))
  | 'f' => some (none, .word ['a', 'l', 's', 'e'] (.bool false))
  | '-' => some (none, .number .minus ['-'])
  | '0' => some (none, .number .zero ['0'])
  | c => if c.isDigit then some (none, .number .whole [c]) else none

/-- The tokens of the rest of a text, given what has been read of the current one; `none` stands
for bytes that are no UTF-8. -/
def tokensFrom : Reading → List (Option Char) → List Token
  | .between, [] => []
  | .number phase digits, [] => if phase.mayEnd then [.number digits.reverse] else [.bad]
  | _, [] => [.bad]
  | .string pieces, none :: rest => tokensFrom (.string (.stray :: pieces)) rest
  | .number phase digits, none :: _ =>
    if phase.mayEnd then [.number digits.reverse, .bad] else [.bad]
  | _, none :: _ => [.bad]
  | .between, some c :: rest =>
    match start? c with
    | none => [.bad]
    | some (none, reading) => tokensFrom reading rest
    | some (some token, reading) => token :: tokensFrom reading rest
  | .string pieces, some c :: rest =>
    if c = '"' then .string pieces.reverse :: tokensFrom .between rest
    else if c = '\\' then tokensFrom (.escape pieces) rest
    else if c.toNat < 0x20 then [.bad]
    else tokensFrom (.string (.char c :: pieces)) rest
  | .escape pieces, some c :: rest =>
    if c = 'u' then tokensFrom (.hex pieces 3 0) rest
    else match unescape? c with
      | some d => tokensFrom (.string (.char d :: pieces)) rest
      | none => [.bad]
  | .hex pieces left value, some c :: rest =>
    match hexDigit? c, left with
    | none, _ => [.bad]
    | some d, 0 => tokensFrom (.string (.unit (16 * value + d) :: pieces)) rest
    | some d, left + 1 => tokensFrom (.hex pieces left (16 * value + d)) rest
  | .word [] token, some c :: rest =>
    token :: match start? c with
    | none => [.bad]
    | some (none, reading) => tokensFrom reading rest
    | some (some mark, reading) => mark :: tokensFrom reading rest
  | .word (expected :: more) token, some c :: rest =>
    if c = expected then
      if more.isEmpty then token :: tokensFrom .between rest
      else tokensFrom (.word more token) rest
    else [.bad]
  | .number phase digits, some c :: rest =>
    match phase.next? c with
    | some next => tokensFrom (.number next (c :: digits)) rest
    | none =>
      if phase.mayEnd && !(phase = .zero && c.isDigit) then
        .number digits.reverse :: match start? c with
        | none => [.bad]
        | some (none, reading) => tokensFrom reading rest
        | some (some mark, reading) => mark :: tokensFrom reading rest
      else [.bad]

/-- The tokens of a text. -/
def tokens (text : List (Option Char)) : List Token :=
  tokensFrom .between text

/-- The text of the pieces of a string: surrogates have to come in pairs, and nothing is stray. -/
def joinPieces? : List Piece → Option (List Char)
  | [] => some []
  | .stray :: _ => none
  | .char c :: rest => (joinPieces? rest).map (c :: ·)
  | .unit high :: .unit low :: rest =>
    if 0xD800 ≤ high ∧ high < 0xDC00 then
      if 0xDC00 ≤ low ∧ low < 0xE000 then
        (joinPieces? rest).map
          (Char.ofNat (0x10000 + (high - 0xD800) * 0x400 + (low - 0xDC00)) :: ·)
      else none
    else if 0xDC00 ≤ high ∧ high < 0xE000 then none
    else (joinPieces? (.unit low :: rest)).map (Char.ofNat high :: ·)
  | .unit n :: rest =>
    if 0xD800 ≤ n ∧ n < 0xE000 then none else (joinPieces? rest).map (Char.ofNat n :: ·)

end ReviewMentor.Json

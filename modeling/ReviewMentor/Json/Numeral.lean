import ReviewMentor.Json.Draft
import ReviewMentor.Json.Basic

/-!
# Numerals

The value of a number that stands in a JSON text. A numeral without point and exponent that fits
into 64 bits is a whole number. Any other one is read by collecting as many digits as fit into 64
bits and then scaling by a power of ten, in double precision with one rounding at each step; a
numeral beyond the largest double has no value.
-/

namespace ReviewMentor.Json

/-- The largest significand that is collected exactly. -/
def significandLimit : Nat := 2 ^ 64 - 1

/-- The number that one more digit makes of a significand, if it still fits. -/
def pushDigit? (significand : Nat) (digit : Char) : Option Nat :=
  let next := significand * 10 + (digit.toNat - 0x30)
  if next ≤ significandLimit then some next else none

/-- Collects digits into a significand; the number of collected digits and those left over. -/
def collectDigits : Nat → List Char → Nat × Nat × List Char
  | significand, [] => (significand, 0, [])
  | significand, c :: rest =>
    match pushDigit? significand c with
    | some next =>
      let (result, count, left) := collectDigits next rest
      (result, count + 1, left)
    | none => (significand, 0, c :: rest)

/-- The value of digits. -/
def digitsValue (digits : List Char) : Nat :=
  digits.foldl (fun n c => n * 10 + (c.toNat - 0x30)) 0

/-- A numeral cut into its parts. -/
structure Numeral where
  negative : Bool
  whole : List Char
  fraction? : Option (List Char)
  power? : Option (Bool × List Char)

namespace Numeral

/-- The exponent after a mark: whether it is negative, and its digits. -/
def signedDigits : List Char → Bool × List Char
  | '-' :: digits => (true, digits)
  | '+' :: digits => (false, digits)
  | digits => (false, digits)

/-- Cuts the characters of a numeral. -/
def ofChars (cs : List Char) : Numeral :=
  let (negative, cs) := match cs with
    | '-' :: rest => (true, rest)
    | _ => (false, cs)
  let whole := cs.takeWhile Char.isDigit
  let (fraction?, cs) := match cs.dropWhile Char.isDigit with
    | '.' :: rest => (some (rest.takeWhile Char.isDigit), rest.dropWhile Char.isDigit)
    | rest => (none, rest)
  let power? := match cs with
    | 'e' :: rest | 'E' :: rest => some (signedDigits rest)
    | _ => none
  ⟨negative, whole, fraction?, power?⟩

/-- The significand of the numeral and its power of ten, the written exponent left out. -/
def significand (n : Numeral) : Nat × Int :=
  let (value, _, dropped) := collectDigits 0 n.whole
  let (value, count, _) := collectDigits value (n.fraction?.getD [])
  (value, (dropped.length : Int) - count)

end Numeral

/-- The largest exponent of a power of ten that is a double. -/
def greatestPower : Nat := 308

/-- A double multiplied by a power of ten, or divided by one, and rounded. -/
def scaleTen? (b : Decimal.Binary) (exponent : Int) : Option Decimal.Binary :=
  let power (k : Nat) : Nat :=
    match Decimal.Binary.ofRatio? .double false (10 ^ k) 1 with
    | some p => p.ratio.1 / p.ratio.2
    | none => 1
  let (num, den) := b.ratio
  match exponent with
  | .ofNat k => Decimal.Binary.ofRatio? .double b.negative (num * power k) den
  | .negSucc k => Decimal.Binary.ofRatio? .double b.negative num (den * power (k + 1))

/-- A double scaled by any power of ten. A number that fits into 64 bits is zero after it has been
divided twice by the greatest power, so few steps are enough. -/
def scaleFar? : Nat → Decimal.Binary → Int → Option Decimal.Binary
  | 0, b, _ => some ⟨b.negative, 0, 0⟩
  | steps + 1, b, exponent =>
    if exponent.natAbs ≤ greatestPower then scaleTen? b exponent
    else if b.mantissa = 0 then some b
    else if 0 ≤ exponent then none
    else do scaleFar? steps (← scaleTen? b (-greatestPower)) (exponent + greatestPower)

namespace Numeral

/-- Bound of the exponents that are added up; a larger one decides alone. -/
def exponentLimit : Int := 2 ^ 31 - 1

/-- The double that the numeral stands for. -/
def real? (n : Numeral) : Option Decimal.Binary := do
  let (value, shift) := n.significand
  let start ← Decimal.Binary.ofRatio? .double n.negative value 1
  match n.power? with
  | none => scaleFar? 4 start shift
  | some (negative, digits) =>
    let size : Int := digitsValue digits
    if exponentLimit < size then
      if !negative && value != 0 then none else some (.zero n.negative)
    else
      let exponent := if negative then shift - size else shift + size
      scaleFar? 4 start (max (-exponentLimit - 1) (min exponentLimit exponent))

end Numeral

/-- The value of a numeral, unless it is beyond the largest double. -/
def number? (cs : List Char) : Option Number :=
  let n := Numeral.ofChars cs
  match n.fraction?, n.power? with
  | none, none =>
    let value := digitsValue n.whole
    if !n.negative && value ≤ significandLimit then some (.int value)
    else if n.negative && 0 < value && value ≤ 2 ^ 63 then some (.int (-(value : Int)))
    else if n.negative && value ≤ significandLimit then
      (Decimal.Binary.ofRatio? .double true value 1).map .real
    else n.real?.map .real
  | _, _ => n.real?.map .real

/-- How deep arrays and objects may be nested in a value that is read as a whole. -/
def depthLimit : Nat := 127

namespace Draft

mutual

/-- The value of a draft whose nesting does not exceed the given depth. -/
def toJson? : Nat → Draft → Option Json
  | _, .null => some .null
  | _, .bool b => some (.bool b)
  | _, .number digits => (number? digits).map .number
  | _, .real value => some (.optional (fun b => .number (.real b)) value)
  | _, .string pieces => (joinPieces? pieces).map fun cs => .string (String.ofList cs)
  | 0, .array _ => none
  | depth + 1, .array items => (itemsToJson? depth items).map .array
  | 0, .object _ => none
  | depth + 1, .object members =>
    (membersToJson? depth members).map fun ms => .object (sortMembers ms)
  | _, .broken => none

/-- The values of the items of an array. -/
def itemsToJson? : Nat → List Draft → Option (List Json)
  | _, [] => some []
  | depth, d :: rest => do
    let j ← toJson? depth d
    let js ← itemsToJson? depth rest
    pure (j :: js)

/-- The values of the members of an object, in their order. -/
def membersToJson? : Nat → List (List Piece × Draft) → Option (List (String × Json))
  | _, [] => some []
  | depth, (name, d) :: rest => do
    let name ← joinPieces? name
    let j ← toJson? depth d
    let js ← membersToJson? depth rest
    pure ((String.ofList name, j) :: js)

end

end Draft

/-- The value of a text that is one JSON value and nothing else. -/
def parse? (text : String) : Option Json :=
  (Draft.read? text).bind (·.toJson? depthLimit)

end ReviewMentor.Json

/-!
# UTF-8

Reading bytes as text, either strictly or with U+FFFD in the place of every ill-formed part, and
bytes as hexadecimal digits.
-/

namespace ReviewMentor.Text

/-- The mark that stands for an ill-formed part. -/
def replacement : Char := Char.ofNat 0xFFFD

/-- Whether a byte continues a sequence. -/
def isContinuation (b : UInt8) : Bool :=
  0x80 ≤ b && b ≤ 0xBF

/-- Whether `b` can follow the leading byte `lead`; some leads narrow the range. -/
def canFollow (lead b : UInt8) : Bool :=
  if lead == 0xE0 then 0xA0 ≤ b && b ≤ 0xBF
  else if lead == 0xED then 0x80 ≤ b && b ≤ 0x9F
  else if lead == 0xF0 then 0x90 ≤ b && b ≤ 0xBF
  else if lead == 0xF4 then 0x80 ≤ b && b ≤ 0x8F
  else isContinuation b

/-- The bits that a continuation byte carries. -/
def low6 (b : UInt8) : Nat :=
  b.toNat % 0x40

/-- The characters of a byte sequence; each maximal ill-formed part stands as `none`. -/
def decode : List UInt8 → List (Option Char)
  | [] => []
  | b :: rest =>
    if b < 0x80 then some (Char.ofNat b.toNat) :: decode rest
    else if 0xC2 ≤ b && b ≤ 0xDF then
      match rest with
      | c :: more =>
        if isContinuation c then
          some (Char.ofNat (b.toNat % 0x20 * 0x40 + low6 c)) :: decode more
        else none :: decode (c :: more)
      | [] => [none]
    else if 0xE0 ≤ b && b ≤ 0xEF then
      match rest with
      | c :: more =>
        if canFollow b c then
          match more with
          | d :: tail =>
            if isContinuation d then
              some (Char.ofNat (b.toNat % 0x10 * 0x1000 + low6 c * 0x40 + low6 d)) :: decode tail
            else none :: decode (d :: tail)
          | [] => [none]
        else none :: decode (c :: more)
      | [] => [none]
    else if 0xF0 ≤ b && b ≤ 0xF4 then
      match rest with
      | c :: more =>
        if canFollow b c then
          match more with
          | d :: tail =>
            if isContinuation d then
              match tail with
              | e :: left =>
                if isContinuation e then
                  some (Char.ofNat
                      (b.toNat % 0x8 * 0x40000 + low6 c * 0x1000 + low6 d * 0x40 + low6 e))
                    :: decode left
                else none :: decode (e :: left)
              | [] => [none]
            else none :: decode (d :: tail)
          | [] => [none]
        else none :: decode (c :: more)
      | [] => [none]
    else none :: decode rest

/-- Text of a byte sequence, with a mark for every ill-formed part. -/
def decodeLossy (bytes : List UInt8) : List Char :=
  (decode bytes).map (·.getD replacement)

/-- The characters of bytes, with `none` for every ill-formed part. -/
def signs (bytes : ByteArray) : List (Option Char) :=
  match String.fromUTF8? bytes with
  | some s => s.toList.map some
  | none => decode bytes.toList

/-- Text of bytes, with a mark for every ill-formed part. -/
def ofBytesLossy (bytes : ByteArray) : String :=
  match String.fromUTF8? bytes with
  | some s => s
  | none => String.ofList (decodeLossy bytes.toList)

/-- The digit of a number below 16. -/
def hexDigit (n : Nat) : Char :=
  if n < 10 then Char.ofNat (n + 0x30) else Char.ofNat (n + 0x57)

/-- Two lower-case digits for each byte. -/
def toHex (bytes : ByteArray) : String :=
  String.ofList (bytes.toList.flatMap fun b => [hexDigit (b.toNat / 16), hexDigit (b.toNat % 16)])

/-- The value of a hexadecimal digit of either case. -/
def hexValue? (c : Char) : Option Nat :=
  if '0' ≤ c ∧ c ≤ '9' then some (c.toNat - 0x30)
  else if 'a' ≤ c ∧ c ≤ 'f' then some (c.toNat - 0x57)
  else if 'A' ≤ c ∧ c ≤ 'F' then some (c.toNat - 0x37)
  else none

/-- The bytes that pairs of digits stand for. -/
def hexBytes? : List Char → Option (List UInt8)
  | [] => some []
  | [_] => none
  | a :: b :: rest => do
    let high ← hexValue? a
    let low ← hexValue? b
    let bytes ← hexBytes? rest
    pure (UInt8.ofNat (16 * high + low) :: bytes)

/-- The bytes that a text of digits stands for. -/
def ofHex? (s : String) : Option ByteArray :=
  (hexBytes? s.toList).map fun bytes => ByteArray.mk bytes.toArray

end ReviewMentor.Text

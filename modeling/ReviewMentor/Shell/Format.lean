import ReviewMentor.Text.Split

/-!
# Formatted printing

Backslash escapes, and formats that say how arguments are printed. A format is used again as long
as there are arguments.
-/

namespace ReviewMentor.Shell

/-- Bytes as an array. -/
def bytes (list : List UInt8) : ByteArray := ⟨list.toArray⟩

/-- The bytes of a text. -/
def utf8 (s : String) : List UInt8 := s.toUTF8.toList

/-- The value of octal digits. -/
def octal (cs : List Char) : Nat :=
  cs.foldl (fun n c => 8 * n + (c.toNat - 0x30)) 0

/-- Whether a character is an octal digit. -/
def isOctal (c : Char) : Bool := '0' ≤ c && c ≤ '7'

/-- The byte that a letter after a backslash stands for. -/
def escapeByte? (c : Char) : Option UInt8 :=
  [('n', 10), ('t', 9), ('r', 13), ('a', 7), ('b', 8), ('f', 12), ('v', 11), ('\\', 92)].lookup c

/-- Bytes of a text with backslash escapes; `true` says that printing stops after them. An escape
with digits begins with a zero where `zeroFirst` says so. -/
def unescape (zeroFirst : Bool) : Nat → List Char → List UInt8 × Bool
  | 0, _ => ([], false)
  | fuel + 1, cs =>
    let more (bytes : List UInt8) (rest : List Char) : List UInt8 × Bool :=
      let (tail, stop) := unescape zeroFirst fuel rest
      (bytes ++ tail, stop)
    match cs with
    | [] => ([], false)
    | '\\' :: 'c' :: _ => ([], true)
    | '\\' :: c :: rest =>
      match escapeByte? c with
      | some b => more [b] rest
      | none =>
        if isOctal c && (!zeroFirst || c = '0') then
          let digits := if zeroFirst then rest else c :: rest
          let taken := (digits.take 3).takeWhile isOctal
          more [UInt8.ofNat (octal taken)] (digits.drop taken.length)
        else more (utf8 (String.ofList ['\\', c])) rest
    | c :: rest => more (utf8 (String.singleton c)) rest

/-- How an argument is padded. -/
structure Padding where
  width : Nat
  toLeft : Bool
  withZeros : Bool
deriving DecidableEq, Repr

/-- A text padded to a width. -/
def Padding.apply (p : Padding) (s : String) : String :=
  let fill (c : Char) : String := String.ofList (List.replicate (p.width - s.length) c)
  if p.toLeft then s ++ fill ' '
  else if p.withZeros then
    if s.startsWith "-" then "-" ++ fill '0' ++ String.ofList (s.toList.drop 1) else fill '0' ++ s
  else fill ' ' ++ s

/-- Reads flags and width of a conversion. -/
def Padding.read (cs : List Char) : Padding × List Char :=
  let flags := cs.takeWhile fun c => c = '-' || c = '0' || c = '+' || c = ' '
  let rest := cs.drop flags.length
  let width := rest.takeWhile Char.isDigit
  (⟨((String.ofList width).toNat?).getD 0, flags.contains '-', flags.contains '0'⟩,
    rest.drop width.length)

/-- What a conversion makes of an argument. -/
def converted (conversion : Char) (precision? : Option Nat) (arg : String) : String :=
  let number := match arg.toList with
    | '"' :: c :: _ | '\'' :: c :: _ => Int.ofNat c.toNat
    | _ => (arg.toInt?).getD 0
  if conversion = 'd' ∨ conversion = 'i' ∨ conversion = 'u' then toString number
  else if conversion = 'x' then String.ofList (Nat.toDigits 16 number.toNat)
  else if conversion = 'X' then
    String.ofList ((Nat.toDigits 16 number.toNat).map Char.toUpper)
  else if conversion = 'o' then String.ofList (Nat.toDigits 8 number.toNat)
  else if conversion = 'c' then String.ofList (arg.toList.take 1)
  else match precision? with
    | some n => String.ofList (arg.toList.take n)
    | none => arg

/-- One pass over a format: the bytes, and the arguments that are left. -/
def format : Nat → List Char → List String → List UInt8 × List String
  | 0, _, args => ([], args)
  | fuel + 1, cs, args =>
    match cs with
    | [] => ([], args)
    | '%' :: '%' :: rest =>
      let (tail, args) := format fuel rest args
      (37 :: tail, args)
    | '%' :: rest =>
      let (padding, rest) := Padding.read rest
      let (precision?, rest) := match rest with
        | '.' :: rest =>
          (some (((String.ofList (rest.takeWhile Char.isDigit)).toNat?).getD 0),
            rest.dropWhile Char.isDigit)
        | rest => (none, rest)
      match rest with
      | c :: rest =>
        let arg := args.headD ""
        let out := if c = 'b' then (unescape true (arg.length + 1) arg.toList).1
          else utf8 (padding.apply (converted c precision? arg))
        let (tail, args) := format fuel rest (args.drop 1)
        (out ++ tail, args)
      | [] => ([37], args)
    | '\\' :: _ =>
      let digits := ((cs.drop 1).take 3).takeWhile isOctal
      let length := if digits.isEmpty then 2 else digits.length + 1
      let out := (unescape false 2 (cs.take length)).1
      let (tail, args) := format fuel (cs.drop length) args
      (out ++ tail, args)
    | c :: rest =>
      let (tail, args) := format fuel rest args
      (utf8 (String.singleton c) ++ tail, args)

/-- Passes over a format until all arguments are used. -/
def formatAll (cs : List Char) : Nat → List String → List UInt8
  | 0, _ => []
  | passes + 1, args =>
    let (out, left) := format (cs.length + 1) cs args
    if left.isEmpty ∨ left.length = args.length then out else out ++ formatAll cs passes left

/-- The bytes that a format makes of some arguments. -/
def formatted (template : String) (args : List String) : ByteArray :=
  bytes (formatAll template.toList (args.length + 1) args)

end ReviewMentor.Shell

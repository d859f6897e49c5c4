import ReviewMentor.Toml.Printer
import ReviewMentor.Timestamp

/-!
# Reading keys, strings and numbers of TOML

Each reader takes what it reads from the front of a text and returns the rest.
-/

namespace ReviewMentor.Toml

/-- Whether a character is a space or a tab. -/
def isGap (c : Char) : Bool := c = ' ' || c = '\t'

/-- A text without the spaces and tabs at its start. -/
def skipGap (cs : List Char) : List Char := cs.dropWhile isGap

/-- Whether a character may stand in a comment. -/
def isCommentChar (c : Char) : Bool :=
  !isControl c && c ≠ '\n'

/-- What follows a line break at the front of a text. -/
def lineBreak? : List Char → Option (List Char)
  | '\n' :: rest => some rest
  | '\r' :: '\n' :: rest => some rest
  | _ => none

/-- A text without the spaces, line breaks and comments at its start. -/
def skipFiller : Bool → List Char → Option (List Char)
  | _, [] => some []
  | _, '\r' :: '\n' :: rest => skipFiller false rest
  | inComment, c :: rest =>
    if c = '\n' then skipFiller false rest
    else if inComment then (if isCommentChar c then skipFiller true rest else none)
    else if isGap c then skipFiller false rest
    else if c = '#' then skipFiller true rest
    else some (c :: rest)

/-- The end of a line: a comment may stand before it. -/
def lineEnd? (cs : List Char) : Option (List Char) :=
  let rest := match skipGap cs with
    | '#' :: comment => comment.dropWhile isCommentChar
    | other => other
  if rest.isEmpty then some [] else lineBreak? rest

/-- The character that an escape with a code stands for. -/
def codePoint? (digits : List Char) : Option Char := do
  let values ← digits.mapM Text.hexValue?
  let n := values.foldl (fun n d => 16 * n + d) 0
  if n < 0xD800 ∨ (0xE000 ≤ n ∧ n < 0x110000) then some (Char.ofNat n) else none

/-- The character that an escape with a letter stands for. -/
def shortEscape? (c : Char) : Option Char :=
  if c = 'b' then some (Char.ofNat 8)
  else if c = 't' then some '\t'
  else if c = 'n' then some '\n'
  else if c = 'f' then some (Char.ofNat 0xC)
  else if c = 'r' then some '\r'
  else if c = '"' then some '"'
  else if c = '\\' then some '\\'
  else none

/-- The rest of a string between double quotes. -/
def basicRest : List Char → Option (List Char × List Char)
  | '"' :: rest => some ([], rest)
  | '\\' :: 'u' :: a :: b :: c :: d :: rest => do
    let x ← codePoint? [a, b, c, d]
    let (s, rest) ← basicRest rest
    pure (x :: s, rest)
  | '\\' :: 'U' :: a :: b :: c :: d :: e :: f :: g :: h :: rest => do
    let x ← codePoint? [a, b, c, d, e, f, g, h]
    let (s, rest) ← basicRest rest
    pure (x :: s, rest)
  | '\\' :: c :: rest => do
    let x ← shortEscape? c
    let (s, rest) ← basicRest rest
    pure (x :: s, rest)
  | c :: rest =>
    if c = '\n' || isControl c then none
    else do
      let (s, rest) ← basicRest rest
      pure (c :: s, rest)
  | [] => none

/-- The rest of a string between single quotes. -/
def literalRest : List Char → Option (List Char × List Char)
  | '\'' :: rest => some ([], rest)
  | c :: rest =>
    if c = '\n' || isControl c then none
    else do
      let (s, rest) ← literalRest rest
      pure (c :: s, rest)
  | [] => none

/-- The quotes that still belong to a long string after three that may close it: up to two. -/
def extraQuotes (mark : Char) (rest : List Char) : List Char × List Char :=
  let extra := (rest.take 2).takeWhile (· = mark)
  (extra, rest.drop extra.length)

/-- What a character puts in front of the rest of a string. -/
def push (c : Char) (r : Option (List Char × List Char)) : Option (List Char × List Char) :=
  r.map fun (s, rest) => (c :: s, rest)

/-- The rest of a string between three double quotes. `folding` says that a backslash at the end of
a line swallows blanks and line breaks. -/
def longBasicRest : Bool → List Char → Option (List Char × List Char)
  | _, [] => none
  | folding, c :: rest =>
    if folding && (isGap c || c = '\n' || (c = '\r' && rest.head? = some '\n')) then
      longBasicRest true rest
    else match c, rest with
      | '"', '"' :: '"' :: more => some (extraQuotes '"' more)
      | '\\', 'u' :: x :: y :: z :: w :: more =>
        (codePoint? [x, y, z, w]).bind fun c => push c (longBasicRest false more)
      | '\\', 'U' :: a :: b :: c :: d :: e :: f :: g :: h :: more =>
        (codePoint? [a, b, c, d, e, f, g, h]).bind fun c => push c (longBasicRest false more)
      | '\\', x :: more =>
        match shortEscape? x with
        | some c => push c (longBasicRest false more)
        | none =>
          if (lineBreak? (skipGap (x :: more))).isSome then longBasicRest true (x :: more) else none
      | '\r', '\n' :: more => push '\n' (longBasicRest false more)
      | c, rest =>
        if c = '\\' || isControl c then none else push c (longBasicRest false rest)

/-- The rest of a string between three single quotes. -/
def longLiteralRest : List Char → Option (List Char × List Char)
  | [] => none
  | '\'' :: '\'' :: '\'' :: more => some (extraQuotes '\'' more)
  | '\r' :: '\n' :: more => push '\n' (longLiteralRest more)
  | c :: rest => if isControl c then none else push c (longLiteralRest rest)

/-- A text without one line break at its start. -/
def dropLineBreak (cs : List Char) : List Char := (lineBreak? cs).getD cs

/-- Reads a string in any of its forms. -/
def string? : List Char → Option (List Char × List Char)
  | '"' :: '"' :: '"' :: rest => longBasicRest false (dropLineBreak rest)
  | '\'' :: '\'' :: '\'' :: rest => longLiteralRest (dropLineBreak rest)
  | '"' :: rest => basicRest rest
  | '\'' :: rest => literalRest rest
  | _ => none

/-- Reads one part of a key. -/
def keyPart? : List Char → Option (List Char × List Char)
  | '"' :: rest => basicRest rest
  | '\'' :: rest => literalRest rest
  | cs =>
    match cs.takeWhile isBareChar with
    | [] => none
    | name => some (name, cs.dropWhile isBareChar)

/-- How deep values and keys may be nested. -/
def depthLimit : Nat := 80

/-- Reads the parts of a key that follow a first one. -/
def keyTail : Nat → List Char → Option (List (List Char) × List Char)
  | 0, _ => none
  | more + 1, cs =>
    match skipGap cs with
    | '.' :: rest => do
      let (name, rest) ← keyPart? (skipGap rest)
      let (names, rest) ← keyTail more rest
      pure (name :: names, rest)
    | rest => some ([], rest)

/-- Reads a key: parts with dots between them. -/
def key? (cs : List Char) : Option (List (List Char) × List Char) := do
  let (name, rest) ← keyPart? cs
  let (names, rest) ← keyTail (depthLimit - 1) rest
  pure (name :: names, rest)

/-- Digits with single underscores between them, as digits. -/
def spacedDigits? (isDigit : Char → Bool) : List Char → Option (List Char)
  | [] => none
  | [c] => if isDigit c then some [c] else none
  | c :: '_' :: rest => if isDigit c then (spacedDigits? isDigit rest).map (c :: ·) else none
  | c :: rest => if isDigit c then (spacedDigits? isDigit rest).map (c :: ·) else none

/-- A text without a sign, and whether the sign is a minus. -/
def sign (cs : List Char) : Bool × List Char :=
  match cs with
  | '-' :: rest => (true, rest)
  | '+' :: rest => (false, rest)
  | _ => (false, cs)

/-- The value of digits in a base. -/
def valueIn (base : Nat) (digits : List Char) : Nat :=
  digits.foldl (fun n c => base * n + (Text.hexValue? c).getD 0) 0

/-- Decimal digits that do not start with a needless zero. -/
def decimal? (cs : List Char) : Option (List Char) := do
  let digits ← spacedDigits? Char.isDigit cs
  if digits.head? = some '0' && digits.length ≠ 1 then none else some digits

/-- The value of a whole number. -/
def integer? (cs : List Char) : Option Int :=
  let inBase (base : Nat) (isDigit : Char → Bool) (rest : List Char) : Option Int :=
    (spacedDigits? isDigit rest).map fun ds => (valueIn base ds : Int)
  let n? : Option Int := match cs with
    | '0' :: 'x' :: rest => inBase 16 (fun c => (Text.hexValue? c).isSome) rest
    | '0' :: 'o' :: rest => inBase 8 (fun c => '0' ≤ c && c ≤ '7') rest
    | '0' :: 'b' :: rest => inBase 2 (fun c => c = '0' || c = '1') rest
    | _ =>
      let (negative, digits) := sign cs
      (decimal? digits).map fun ds =>
        if negative then -(valueIn 10 ds : Int) else (valueIn 10 ds : Int)
  n?.filter fun n => -2 ^ 63 ≤ n ∧ n < 2 ^ 63

/-- The nearest double to digits with a fraction and an exponent. An exponent that is far from the
digits decides alone. -/
def nearest? (negative : Bool) (digits fraction : List Char) (exponent : Int) :
    Option Decimal.Binary :=
  let value := valueIn 10 (digits ++ fraction)
  let exponent := exponent - fraction.length
  let size : Int := (digits ++ fraction).length
  if value = 0 ∨ exponent + size < -400 then some (.zero negative)
  else if 400 < exponent + size then none
  else match exponent with
    | .ofNat k => Decimal.Binary.ofRatio? .double negative (value * 10 ^ k) 1
    | .negSucc k => Decimal.Binary.ofRatio? .double negative value (10 ^ (k + 1))

/-- The value of a number with a fraction or an exponent. -/
def float? (cs : List Char) : Option (Option Decimal.Binary) :=
  let (negative, body) := sign cs
  if body = "inf".toList ∨ body = "nan".toList then some none
  else do
    let isMark (c : Char) : Bool := c = 'e' || c = 'E'
    let mantissa := body.takeWhile fun c => !isMark c
    let whole ← decimal? (mantissa.takeWhile (· ≠ '.'))
    let fraction? ← match mantissa.dropWhile (· ≠ '.') with
      | _ :: rest => (spacedDigits? Char.isDigit rest).map some
      | [] => some none
    let exponent? ← match body.dropWhile fun c => !isMark c with
      | _ :: rest =>
        let (negative, digits) := sign rest
        (spacedDigits? Char.isDigit digits).map fun ds =>
          some (if negative then -(valueIn 10 ds : Int) else (valueIn 10 ds : Int))
      | [] => some none
    if fraction?.isNone && exponent?.isNone then none
    else match nearest? negative whole (fraction?.getD []) (exponent?.getD 0) with
      | some value => some (some value)
      | none => if negative then some none else none

/-- Reads digits that have to be there in the given number. -/
def fixedDigits? (count : Nat) (cs : List Char) : Option (Nat × List Char) :=
  let digits := cs.take count
  if digits.length = count && digits.all Char.isDigit then some (valueIn 10 digits, cs.drop count)
  else none

/-- Reads a character that has to be there. -/
def char? (c : Char) : List Char → Option (List Char)
  | d :: rest => if d = c then some rest else none
  | [] => none

/-- What follows a time of day. -/
def afterTime? (cs : List Char) : Option (List Char) := do
  let (hour, cs) ← fixedDigits? 2 cs
  let (minute, cs) ← fixedDigits? 2 (← char? ':' cs)
  let (second, cs) ← fixedDigits? 2 (← char? ':' cs)
  if 23 < hour ∨ 59 < minute ∨ 60 < second then none
  else match cs with
    | '.' :: rest => match rest.takeWhile Char.isDigit with
      | [] => none
      | ds => some (rest.drop ds.length)
    | _ => some cs

/-- What follows an offset from universal time. -/
def afterOffset? (cs : List Char) : Option (List Char) :=
  match cs with
  | 'Z' :: rest | 'z' :: rest => some rest
  | '+' :: rest | '-' :: rest => do
    let (hour, rest) ← fixedDigits? 2 rest
    let (minute, rest) ← fixedDigits? 2 (← char? ':' rest)
    if 23 < hour ∨ 59 < minute then none else some rest
  | _ => none

/-- What follows a date. -/
def afterDate? (cs : List Char) : Option (List Char) := do
  let (year, cs) ← fixedDigits? 4 cs
  let (month, cs) ← fixedDigits? 2 (← char? '-' cs)
  let (day, cs) ← fixedDigits? 2 (← char? '-' cs)
  if month < 1 ∨ 12 < month ∨ day < 1 ∨ Timestamp.daysIn year month < day then none else some cs

/-- What follows a date, a time of day, or both. -/
def afterMoment? (cs : List Char) : Option (List Char) :=
  match afterDate? cs with
  | none => afterTime? cs
  | some rest =>
    match rest with
    | c :: more =>
      if c = 'T' || c = 't' || c = ' ' then
        match afterTime? more with
        | some after => some ((afterOffset? after).getD after)
        | none => some rest
      else some rest
    | [] => some []

/-- Whether a character may stand in a number. -/
def isNumberChar (c : Char) : Bool :=
  c.isAlphanum || c = '_' || c = '.' || c = '+' || c = '-'

/-- Reads a moment, a number or a truth value. -/
def plain? (cs : List Char) : Option (Toml × List Char) :=
  match afterMoment? cs with
  | some rest => some (.moment, rest)
  | none =>
    let word := cs.takeWhile isNumberChar
    let rest := cs.dropWhile isNumberChar
    if word = "true".toList then some (.boolean true, rest)
    else if word = "false".toList then some (.boolean false, rest)
    else match integer? word with
      | some n => some (.integer n, rest)
      | none => (float? word).map fun value => (.float value, rest)

end ReviewMentor.Toml

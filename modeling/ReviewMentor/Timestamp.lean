import ReviewMentor.Powers
import ReviewMentor.Text.Blank

/-!
# Moments

Moments in universal time, read from and written as dates with times. Reading allows blanks between
the parts, fewer digits and any offset; writing gives a fraction of three, six or nine digits where
one is needed. A leap second is kept as a 61st second.
-/

namespace ReviewMentor

/-- A moment: seconds since the start of 1970 in universal time, and nanoseconds. Within a leap
second there are more than a billion nanoseconds. -/
structure Timestamp where
  seconds : Int
  nanos : Nat
deriving DecidableEq, Repr, Inhabited

namespace Timestamp

/-- Days from the start of 1970 to a date. Years are counted from March on, so that the leap day is
the last day of a year. -/
def daysOf (year : Int) (month day : Nat) : Int :=
  let year := if month ≤ 2 then year - 1 else year
  let era := year.fdiv 400
  let yearOfEra := year - era * 400
  let monthFromMarch := (month + 9) % 12
  let dayOfYear : Int := (153 * monthFromMarch + 2) / 5 + day - 1
  let dayOfEra := yearOfEra * 365 + yearOfEra / 4 - yearOfEra / 100 + dayOfYear
  era * 146097 + dayOfEra - 719468

/-- The date that lies some days after the start of 1970. -/
def dateOf (days : Int) : Int × Nat × Nat :=
  let days := days + 719468
  let era := days.fdiv 146097
  let dayOfEra := (days - era * 146097).toNat
  let yearOfEra := (dayOfEra - dayOfEra / 1460 + dayOfEra / 36524 - dayOfEra / 146096) / 365
  let dayOfYear := dayOfEra - (365 * yearOfEra + yearOfEra / 4 - yearOfEra / 100)
  let monthFromMarch := (5 * dayOfYear + 2) / 153
  let day := dayOfYear - (153 * monthFromMarch + 2) / 5 + 1
  let month := if monthFromMarch < 10 then monthFromMarch + 3 else monthFromMarch - 9
  (yearOfEra + era * 400 + (if month ≤ 2 then 1 else 0), month, day)

/-- Whether a year has a leap day. -/
def isLeap (year : Int) : Bool :=
  year % 4 = 0 && (year % 100 ≠ 0 || year % 400 = 0)

/-- The number of days of a month. -/
def daysIn (year : Int) (month : Nat) : Nat :=
  if month = 2 then (if isLeap year then 29 else 28)
  else if month ∈ [4, 6, 9, 11] then 30 else 31

/-- The earliest and the latest year of a moment. -/
def yearRange : Int × Int := (-262143, 262142)

/-- A text without the blanks at its start. -/
def skipBlanks (cs : List Char) : List Char := cs.dropWhile Text.isBlank

/-- The value of digits. -/
def valueOf (digits : List Char) : Nat :=
  digits.foldl (fun n c => n * 10 + (c.toNat - 0x30)) 0

/-- Reads at least one digit, and no more than the given number. -/
def digits? (most : Nat) (cs : List Char) : Option (Nat × List Char) :=
  match (cs.take most).takeWhile Char.isDigit with
  | [] => none
  | ds => some (valueOf ds, cs.drop ds.length)

/-- Reads a number after blanks. -/
def number? (most : Nat) (cs : List Char) : Option (Nat × List Char) :=
  digits? most (skipBlanks cs)

/-- Reads a mark after blanks. -/
def mark? (mark : Char) (cs : List Char) : Option (List Char) :=
  match skipBlanks cs with
  | c :: rest => if c = mark then some rest else none
  | [] => none

/-- Reads a year: four digits, or any number of them after a sign. -/
def year? (cs : List Char) : Option (Int × List Char) :=
  let signed (sign : Int) (rest : List Char) : Option (Int × List Char) :=
    (digits? rest.length rest).map fun (n, rest) => (sign * n, rest)
  match skipBlanks cs with
  | '-' :: rest => signed (-1) rest
  | '+' :: rest => signed 1 rest
  | rest => (digits? 4 rest).map fun (n, rest) => ((n : Int), rest)

/-- Reads a fraction of a second, as nanoseconds; digits after the ninth are dropped. -/
def fraction? (cs : List Char) : Option (Nat × List Char) :=
  match cs with
  | '.' :: rest =>
    match rest.takeWhile Char.isDigit with
    | [] => none
    | ds =>
      let kept := ds.take 9
      some (valueOf kept * 10 ^ (9 - kept.length), rest.drop ds.length)
  | _ => some (0, cs)

/-- Whether a text starts with the word for universal time, in any case. -/
def startsUtc (cs : List Char) : Bool :=
  (cs.take 3).map Char.toLower = ['u', 't', 'c']

/-- Reads an offset from universal time, in seconds. -/
def offset? (cs : List Char) : Option (Int × List Char) :=
  let signed (sign : Int) (rest : List Char) : Option (Int × List Char) := do
    let (h, rest) ← digits? 2 rest
    let hours := h
    let (m, after) ← digits? 2 (rest.dropWhile fun c => c = ':' || Text.isBlank c)
    if m < 60 then some (sign * (hours * 3600 + m * 60 : Nat), after) else none
  let twoDigits (rest : List Char) : Bool := (rest.take 2).length = 2 && (rest.take 2).all Char.isDigit
  let minutesFollow (rest : List Char) : Bool :=
    twoDigits ((rest.drop 2).dropWhile fun c => c = ':' || Text.isBlank c)
  match cs with
  | 'z' :: rest | 'Z' :: rest => some (0, rest)
  | c :: rest =>
    if startsUtc cs then some (0, cs.drop 3)
    else if !(twoDigits rest && minutesFollow rest) then none
    else if c = '+' then signed 1 rest
    else if c = '-' || c = '−' then signed (-1) rest
    else none
  | [] => none

/-- The moment of a date and a time with an offset, if there is such a date and time. -/
def ofParts? (year : Int) (month day hour minute second nanos : Nat) (offset : Int) :
    Option Timestamp :=
  if month < 1 ∨ 12 < month ∨ day < 1 ∨ daysIn year month < day ∨ 23 < hour ∨ 59 < minute ∨
      60 < second ∨ 86400 ≤ offset.natAbs ∨ year < yearRange.1 ∨ yearRange.2 < year then none
  else
    let inDay := hour * 3600 + minute * 60 + min second 59
    let seconds := daysOf year month day * 86400 + inDay - offset
    let shown := (dateOf (seconds.fdiv 86400)).1
    if shown < yearRange.1 ∨ yearRange.2 < shown then none
    else some ⟨seconds, if second = 60 then nanos + 10 ^ 9 else nanos⟩

/-- Reads a moment. -/
def parse? (s : String) : Option Timestamp := do
  let (year, cs) ← year? s.toList
  let (month, cs) ← number? 2 (← mark? '-' cs)
  let (day, cs) ← number? 2 (← mark? '-' cs)
  let cs ← match cs with
    | 't' :: rest | 'T' :: rest | ' ' :: rest => some rest
    | _ => none
  let (hour, cs) ← number? 2 cs
  let (minute, cs) ← number? 2 (← mark? ':' cs)
  let (second, cs) ← number? 2 (← mark? ':' cs)
  let (nanos, cs) ← fraction? cs
  let (offset, cs) ← offset? (skipBlanks cs)
  if (skipBlanks cs).isEmpty then ofParts? year month day hour minute second nanos offset else none

/-- A number with at least the given number of digits. -/
def padded (width n : Nat) : String :=
  let digits := toString n
  String.ofList (List.replicate (width - digits.length) '0') ++ digits

/-- A year; one that has not four digits gets a sign. -/
def renderYear (year : Int) : String :=
  if 0 ≤ year ∧ year ≤ 9999 then padded 4 year.toNat
  else (if year < 0 then "-" else "+") ++ padded 4 year.natAbs

/-- The digits of a fraction of a second. -/
def renderFraction (nanos : Nat) : String :=
  if nanos = 0 then ""
  else if nanos % 1000000 = 0 then "." ++ padded 3 (nanos / 1000000)
  else if nanos % 1000 = 0 then "." ++ padded 6 (nanos / 1000)
  else "." ++ padded 9 nanos

/-- Writes a moment. -/
def render (t : Timestamp) : String :=
  let (year, month, day) := dateOf (t.seconds.fdiv 86400)
  let inDay := (t.seconds.fmod 86400).toNat
  let leap := if 10 ^ 9 ≤ t.nanos then 1 else 0
  renderYear year ++ "-" ++ padded 2 month ++ "-" ++ padded 2 day ++ "T" ++
    padded 2 (inDay / 3600) ++ ":" ++ padded 2 (inDay / 60 % 60) ++ ":" ++
    padded 2 (inDay % 60 + leap) ++ renderFraction (t.nanos - leap * 10 ^ 9) ++ "Z"

end Timestamp

end ReviewMentor

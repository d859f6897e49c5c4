import ReviewMentor.Toml.Basic
import ReviewMentor.Text.Utf8

/-!
# Written TOML

Strings and keys in the most readable of their written forms. A string is written plainly between
double quotes if nothing in it has to be escaped; else between single quotes; else over several
lines; and only where no such form exists are characters escaped.
-/

namespace ReviewMentor.Toml

/-- The longest run of a character. -/
def longestRun (mark : Char) (cs : List Char) : Nat :=
  (cs.foldl (fun (best, run) c =>
    if c = mark then (max best (run + 1), run + 1) else (best, 0)) (0, 0)).1

/-- Whether a character has to be escaped in every form: a control character, neither tab nor line
feed. -/
def isControl (c : Char) : Bool :=
  (c.toNat < 0x20 && c ≠ '\t' && c ≠ '\n') || c.toNat = 0x7F

/-- The four forms of a string. -/
inductive Form where
  | basic
  | literal
  | longBasic
  | longLiteral
deriving DecidableEq, Repr

namespace Form

/-- What stands before and after a string. -/
def quotes : Form → List Char
  | basic => ['"']
  | literal => ['\'']
  | longBasic => ['"', '"', '"']
  | longLiteral => ['\'', '\'', '\'']

/-- Whether a string may go over several lines. -/
def isLong : Form → Bool
  | longBasic | longLiteral => true
  | basic | literal => false

/-- The form in which a string is written. -/
def ofString (cs : List Char) : Form :=
  let control := cs.any isControl
  let backslash := cs.contains '\\'
  let newline := cs.contains '\n'
  let double := longestRun '"' cs
  let single := longestRun '\'' cs
  if !control && !backslash && double = 0 && !newline then basic
  else if !control && single = 0 && !newline then literal
  else if !control && !backslash && double ≤ 2 then longBasic
  else if !control && single ≤ 2 then longLiteral
  else if newline then longBasic
  else basic

/-- The form in which a key is written that needs quotes. -/
def ofKey (cs : List Char) : Form :=
  let control := cs.any fun c => isControl c || c = '\n'
  if !control && !cs.contains '\\' && !cs.contains '"' then basic
  else if !control && !cs.contains '\'' then literal
  else basic

end Form

/-- An escape with four digits. -/
def unicodeEscape (c : Char) : List Char :=
  let digit (n : Nat) : Char := (Text.hexDigit (c.toNat / n % 16)).toUpper
  ['\\', 'u', digit 0x1000, digit 0x100, digit 0x10, digit 1]

/-- A character between double quotes. -/
def escapeChar (c : Char) : List Char :=
  if c = '\t' then ['\\', 't']
  else if c = '\n' then ['\\', 'n']
  else if c = '\r' then ['\\', 'r']
  else if c = '\\' then ['\\', '\\']
  else if c.toNat = 0x8 then ['\\', 'b']
  else if c.toNat = 0xC then ['\\', 'f']
  else if c = '"' then ['\\', '"']
  else if isControl c then unicodeEscape c
  else [c]

/-- Characters between double quotes. Over several lines, line feeds and up to two quotes in a row
stand for themselves; `run` is the number of quotes just written. -/
def escapeFrom (long : Bool) : Nat → List Char → List Char
  | _, [] => []
  | run, c :: rest =>
    if c = '"' then
      if long && run < 2 then '"' :: escapeFrom long (run + 1) rest
      else escapeChar c ++ escapeFrom long 0 rest
    else if c = '\n' && long then '\n' :: escapeFrom long 0 rest
    else escapeChar c ++ escapeFrom long 0 rest

/-- A string in a form. -/
def writeAs (form : Form) (cs : List Char) : List Char :=
  let opening := if form.isLong && cs.contains '\n' then form.quotes ++ ['\n'] else form.quotes
  let body := match form with
    | .literal | .longLiteral => cs
    | .basic => escapeFrom false 0 cs
    | .longBasic => escapeFrom true 0 cs
  opening ++ body ++ form.quotes

/-- A written string. -/
def writeString (cs : List Char) : List Char :=
  writeAs (.ofString cs) cs

/-- Whether a character may stand in a key without quotes. -/
def isBareChar (c : Char) : Bool :=
  c.isAlphanum || c = '-' || c = '_'

/-- A written key. -/
def writeKey (cs : List Char) : List Char :=
  if cs ≠ [] && cs.all isBareChar then cs else writeAs (.ofKey cs) cs

/-- Written items with commas between them. -/
def writeItems : List (List Char) → List Char
  | [] => []
  | [item] => item
  | item :: rest => item ++ ',' :: ' ' :: writeItems rest

/-- A written array of strings. -/
def writeStrings (items : List (List Char)) : List Char :=
  '[' :: writeItems (items.map writeString) ++ [']']

/-- A written line that gives a key an array of strings. -/
def writeMember (name : List Char) (items : List (List Char)) : List Char :=
  writeKey name ++ " = ".toList ++ writeStrings items ++ ['\n']

end ReviewMentor.Toml

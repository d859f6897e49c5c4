import ReviewMentor.Json.Basic
import ReviewMentor.Text.Utf8
import ReviewMentor.Text.Split

/-!
# Written JSON

The two written forms of a value: on one line without spaces, and over several lines with two
spaces for each level. Both escape quotes, backslashes and control characters, and nothing else.
-/

namespace ReviewMentor

namespace Json

/-- The characters that stand for one character inside quotes. -/
def escapeChar (c : Char) : List Char :=
  if c = '"' then ['\\', '"']
  else if c = '\\' then ['\\', '\\']
  else if c = '\n' then ['\\', 'n']
  else if c = '\r' then ['\\', 'r']
  else if c = '\t' then ['\\', 't']
  else if c.toNat = 0x8 then ['\\', 'b']
  else if c.toNat = 0xC then ['\\', 'f']
  else if c.toNat < 0x20 then
    ['\\', 'u', '0', '0', Text.hexDigit (c.toNat / 16), Text.hexDigit (c.toNat % 16)]
  else [c]

/-- A text between quotes. -/
def quoted (s : String) : List Char :=
  '"' :: s.toList.flatMap escapeChar ++ ['"']

end Json

/-- The digits of a number. -/
def Number.render : Number → String
  | .int n => toString n
  | .real b => b.render .double

namespace Json

/-- The parts with a separator between neighbours. -/
def separated (separator : List Char) : List (List Char) → List Char
  | [] => []
  | [part] => part
  | part :: rest => part ++ separator ++ separated separator rest

mutual

/-- The value on one line. -/
def compactChars : Json → List Char
  | null => "null".toList
  | bool b => (if b then "true" else "false").toList
  | number n => n.render.toList
  | string s => quoted s
  | array items => '[' :: separated [','] (compactItems items) ++ [']']
  | object members => '\x7b' :: separated [','] (compactMembers members) ++ ['\x7d']

/-- The items of an array, each on one line. -/
def compactItems : List Json → List (List Char)
  | [] => []
  | item :: rest => compactChars item :: compactItems rest

/-- The members of an object, each on one line. -/
def compactMembers : List (String × Json) → List (List Char)
  | [] => []
  | (name, value) :: rest => (quoted name ++ ':' :: compactChars value) :: compactMembers rest

end

/-- A line break and the indentation of a level. -/
def lineBreak (level : Nat) : List Char :=
  '\n' :: List.replicate (2 * level) ' '

/-- Parts between brackets, each on a line of its own one level deeper. -/
def block (opening closing : Char) (level : Nat) (parts : List (List Char)) : List Char :=
  if parts.isEmpty then [opening, closing]
  else opening :: lineBreak (level + 1) ++ separated (',' :: lineBreak (level + 1)) parts ++
    lineBreak level ++ [closing]

mutual

/-- The value over several lines; the first line is already at the given level. -/
def prettyChars (level : Nat) : Json → List Char
  | null => "null".toList
  | bool b => (if b then "true" else "false").toList
  | number n => n.render.toList
  | string s => quoted s
  | array items => block '[' ']' level (prettyItems (level + 1) items)
  | object members => block '\x7b' '\x7d' level (prettyMembers (level + 1) members)

/-- The items of an array at the given level. -/
def prettyItems (level : Nat) : List Json → List (List Char)
  | [] => []
  | item :: rest => prettyChars level item :: prettyItems level rest

/-- The members of an object at the given level. -/
def prettyMembers (level : Nat) : List (String × Json) → List (List Char)
  | [] => []
  | (name, value) :: rest =>
    (quoted name ++ ':' :: ' ' :: prettyChars level value) :: prettyMembers level rest

end

/-- The value on one line. -/
def compact (j : Json) : String :=
  String.ofList j.compactChars

/-- The value over several lines. -/
def pretty (j : Json) : String :=
  String.ofList (j.prettyChars 0)

end Json

end ReviewMentor

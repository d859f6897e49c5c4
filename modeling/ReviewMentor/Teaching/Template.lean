import ReviewMentor.Issue

/-!
# Templates

Texts with named places for what an issue says. A text is first cut into characters and places;
what the issue says is put in afterwards and never looked at again.
-/

namespace ReviewMentor

/-- What a place in a template stands for. -/
inductive Placeholder where
  | code
  | message
  | file
  | line
  | severity
deriving DecidableEq, Repr

namespace Placeholder

/-- The name of a place. -/
def name : Placeholder → String
  | code => "code"
  | message => "message"
  | file => "file"
  | line => "line"
  | severity => "severity"

/-- All places. -/
def all : List Placeholder := [code, message, file, line, severity]

/-- The place with a name. -/
def named? (cs : List Char) : Option Placeholder :=
  all.find? fun p => p.name.toList = cs

/-- What an issue puts into a place. -/
def value (p : Placeholder) (i : Issue) : String :=
  match p with
  | code => i.code
  | message => i.message
  | file => i.file
  | line => toString i.line
  | severity => i.severity.getD "unspecified"

end Placeholder

/-- A part of a template text. -/
inductive TemplatePart where
  | char (c : Char)
  | place (p : Placeholder)
deriving DecidableEq, Repr

namespace TemplatePart

/-- The opening brace. -/
def opening : Char := '\x7b'

/-- The closing brace. -/
def closing : Char := '\x7d'

/-- Whether a character can stand in the name of a place. -/
def isNameChar (c : Char) : Bool := c.isLower || c = '_'

/-- The place whose name follows an opening brace, closed by a brace. -/
def place? (cs : List Char) : Option Placeholder :=
  match cs.dropWhile isNameChar with
  | c :: _ => if c = closing then Placeholder.named? (cs.takeWhile isNameChar) else none
  | [] => none

/-- The parts of a text. The number says how many characters still belong to the last place. -/
def partsFrom : Nat → List Char → List TemplatePart
  | _, [] => []
  | skip + 1, _ :: rest => partsFrom skip rest
  | 0, c :: rest =>
    match if c = opening then place? rest else none with
    | some p => .place p :: partsFrom (p.name.length + 1) rest
    | none => .char c :: partsFrom 0 rest

/-- The parts of a text. -/
def parts (text : String) : List TemplatePart := partsFrom 0 text.toList

/-- What an issue makes of a part. -/
def fill (i : Issue) : TemplatePart → List Char
  | char c => [c]
  | place p => (p.value i).toList

end TemplatePart

/-- A text with what an issue says in its places. -/
def fillText (text : String) (i : Issue) : String :=
  String.ofList ((TemplatePart.parts text).flatMap (TemplatePart.fill i))

/-- The four texts of an explanation. -/
structure Template where
  title : String
  why : String
  fix : String
  sample : String
deriving DecidableEq, Repr

namespace Template

/-- The texts with what an issue says in their places. -/
def fill (t : Template) (i : Issue) : Template :=
  ⟨fillText t.title i, fillText t.why i, fillText t.fix i, fillText t.sample i⟩

/-- Writes the four texts. -/
def toJson (t : Template) : Json :=
  .object [("title", .string t.title), ("why", .string t.why), ("fix", .string t.fix),
    ("example", .string t.sample)]

end Template

end ReviewMentor

import ReviewMentor.Analyzer
import ReviewMentor.Text.Case

/-!
# Issues

One finding, in the form that all analyzers share.
-/

namespace ReviewMentor

/-- What sort of finding an issue is. -/
inductive Category where
  | error
  | warning
  | security
  | complexity
  | convention
  | refactor
  | info
deriving DecidableEq, Repr, Inhabited

namespace Category

/-- The word for a category. -/
def name : Category → String
  | error => "error"
  | warning => "warning"
  | security => "security"
  | complexity => "complexity"
  | convention => "convention"
  | refactor => "refactor"
  | info => "info"

/-- All categories. -/
def all : List Category :=
  [error, warning, security, complexity, convention, refactor, info]

/-- The category with a name. -/
def named? (s : String) : Option Category :=
  all.find? (·.name = s)

/-- The word for a category with a capital letter. -/
def label (c : Category) : String :=
  match c.name.toList with
  | [] => ""
  | first :: rest => String.ofList (Text.upperChar first ++ rest)

/-- Writes a category. -/
def toJson (c : Category) : Json := .string c.name

/-- Reads a category. -/
def read : Json.Decode Category := Json.Draft.word named?

end Category

/-- One finding. -/
structure Issue where
  category : Category
  file : String
  line : Nat
  message : String
  code : String
  analyzer : Analyzer
  severity : Option String
  confidence : Option String
  url : Option String
  /-- Cyclomatic complexity of the block, where that is what was found. -/
  complexity : Option Nat
deriving DecidableEq, Repr

namespace Issue

/-- Whether the issue is shown to experienced learners only: its code starts with `E` or `F`. -/
def isAdvancedOnly (i : Issue) : Bool :=
  match i.code.toList with
  | 'E' :: _ | 'F' :: _ => true
  | _ => false

/-- The issue in one line. -/
def summary (i : Issue) : String :=
  "[" ++ i.category.label ++ "] " ++ i.code ++ ": " ++ i.message

/-- A member that is left out when it has no value. -/
def optionalMember (name : String) (encode : α → Json) : Option α → List (String × Json)
  | none => []
  | some a => [(name, encode a)]

/-- The members of a written issue. -/
def members (i : Issue) : List (String × Json) :=
  [("category", i.category.toJson), ("file", .string i.file), ("line", .nat i.line),
    ("message", .string i.message), ("code", .string i.code),
    ("source_tool", i.analyzer.toJson)] ++
  optionalMember "severity" .string i.severity ++
  optionalMember "confidence" .string i.confidence ++
  optionalMember "url" .string i.url ++
  optionalMember "complexity" .nat i.complexity

/-- Writes an issue. -/
def toJson (i : Issue) : Json := .object i.members

/-- Writes an issue together with its summary. -/
def view (i : Issue) : Json :=
  .object (i.members ++ [("flamingo_message", .string i.summary)])

/-- The fields of a written issue; `type` is another name of the category. -/
def record : Json.Record Issue :=
  (Json.Record.start Issue.mk)
    |>.needs ["category", "type"] Category.read
    |>.needs ["file"] Json.Draft.text
    |>.defaults "line" (Json.Draft.natural 32) 0
    |>.needs ["message"] Json.Draft.text
    |>.needs ["code"] Json.Draft.text
    |>.needs ["source_tool"] Analyzer.read
    |>.defaults "severity" (Json.Draft.nullable Json.Draft.text) none
    |>.defaults "confidence" (Json.Draft.nullable Json.Draft.text) none
    |>.defaults "url" (Json.Draft.nullable Json.Draft.text) none
    |>.defaults "complexity" (Json.Draft.nullable (Json.Draft.natural 32)) none

/-- Reads an issue. -/
def read : Json.Decode Issue := record.read

end Issue

end ReviewMentor

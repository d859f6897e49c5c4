import ReviewMentor.Text.Blank
import ReviewMentor.Text.Split

/-!
# Sections of an answer

An answer of a model is cut at its header lines `### Name`. Of several sections with one name the
first one counts that says anything; sections with other names only end the one before them.
-/

namespace ReviewMentor

/-- The sections of an explanation. -/
structure Sections where
  why : String
  fix : String
  sample : String
  tip : String
deriving DecidableEq, Repr

namespace Sections

/-- Whether a character is a space or a tab. -/
def isGap (c : Char) : Bool := c = ' ' || c = '\t'

/-- Whether a character is an unaccented letter. -/
def isPlainLetter (c : Char) : Bool := c.isUpper || c.isLower

/-- The name in a header line, in lower case. -/
def headerName? (line : List Char) : Option (List Char) :=
  match line.dropWhile isGap with
  | '#' :: '#' :: '#' :: rest =>
    match (rest.dropWhile isGap).takeWhile isPlainLetter with
    | [] => none
    | name => some (name.map Char.toLower)
  | _ => none

/-- The lines up to the next header, and the sections after them, each with its name. -/
def split : List (List Char) → List (List Char) × List (List Char × List (List Char))
  | [] => ([], [])
  | line :: rest =>
    let (body, sections) := split rest
    match headerName? line with
    | some name => ([], (name, body) :: sections)
    | none => (line :: body, sections)

/-- The text of lines. -/
def body (lines : List (List Char)) : String :=
  Text.trim (String.ofList (['\n'].intercalate lines))

/-- The sections of a text with their names. -/
def named (text : String) : List (String × String) :=
  (split (Text.cutAt '\n' text.toList)).2.map fun s => (String.ofList s.1, body s.2)

/-- The first section with a name that says anything. -/
def find (name : String) (sections : List (String × String)) : String :=
  ((sections.find? fun s => s.1 = name && s.2 ≠ "").map (·.2)).getD ""

/-- The sections of a text. -/
def parse (text : String) : Sections :=
  let sections := named text
  ⟨find "why" sections, find "fix" sections, find "example" sections, find "protip" sections⟩

/-- Whether all sections are missing. -/
def isEmpty (s : Sections) : Bool :=
  s.why = "" && s.fix = "" && s.sample = "" && s.tip = ""

end Sections

end ReviewMentor

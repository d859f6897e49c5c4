import ReviewMentor.Files.Tree
import ReviewMentor.Text.Split

/-!
# Patterns

A star stands for any text and a question mark for any character, unless they were quoted. A
pattern names the files whose paths it accepts, part by part.
-/

namespace ReviewMentor.Shell

/-- The characters of a word, each with whether it stands only for itself. -/
abbrev Pattern := List (Char × Bool)

namespace Pattern

/-- A pattern for exactly one text. -/
def literal (cs : List Char) : Pattern := cs.map fun c => (c, true)

/-- A pattern whose signs have their meaning. -/
def wild (cs : List Char) : Pattern := cs.map fun c => (c, false)

/-- The characters of a pattern. -/
def chars (p : Pattern) : List Char := p.map Prod.fst

/-- The text of a pattern. -/
def text (p : Pattern) : String := String.ofList p.chars

/-- Whether a pattern stands for more than its own text. -/
def isOpen (p : Pattern) : Bool := p.contains ('*', false) || p.contains ('?', false)

/-- Whether a pattern accepts a text. -/
def accepts : Pattern → List Char → Bool
  | [], cs => cs.isEmpty
  | (c, isLiteral) :: p, cs =>
    if !isLiteral && c = '*' then
      accepts p cs || match cs with
        | [] => false
        | _ :: rest => accepts ((c, isLiteral) :: p) rest
    else match cs with
      | [] => false
      | d :: rest => ((!isLiteral && c = '?') || c = d) && accepts p rest
termination_by p cs => p.length + cs.length

/-- The parts of a pattern between slashes. -/
def parts (p : Pattern) : List Pattern :=
  p.foldr (fun c (parts : List Pattern) =>
    if c.1 = '/' then [] :: parts
    else match parts with
      | part :: rest => (c :: part) :: rest
      | [] => [[c]]) [[]]

/-- The names in a directory that a part of a pattern accepts. Names that begin with a dot are
hidden from signs. -/
def namesIn (t : FileTree) (cwd : Place) (directory : String) (part : Pattern) : List String :=
  match t.find cwd true ⟨if directory = "" then "." else directory⟩ with
  | .ok place => (t.names place).filter fun name =>
    part.accepts name.toList && (part.chars.head? = some '.' || name.toList.head? ≠ some '.')
  | .error _ => []

/-- The paths of existing files that a pattern accepts. -/
def paths (t : FileTree) (cwd : Place) (p : Pattern) : List String :=
  let candidates := p.parts.foldl (fun (bases, separator) part =>
    let more := bases.flatMap fun base =>
      if part.isOpen then
        (namesIn t cwd (base ++ separator) part).map fun name => base ++ separator ++ name
      else [base ++ separator ++ part.text]
    (more, "/")) ([""], "")
  candidates.1.filter fun path => t.holds cwd ⟨path⟩

/-- The words that a word stands for: the files that it accepts, or itself. -/
def expand (t : FileTree) (cwd : Place) (p : Pattern) : List String :=
  if p.isOpen then
    match paths t cwd p with
    | [] => [p.text]
    | found => found
  else [p.text]

end Pattern

/-- Cuts unquoted text into words at its gaps. -/
def fields (text : List Char) : List (List Char) :=
  let isGap (c : Char) : Bool := c = ' ' || c = '\t' || c = '\n'
  text.foldr (fun c (words : List (List Char)) =>
    if isGap c then [] :: words
    else match words with
      | w :: rest => (c :: w) :: rest
      | [] => [[c]]) [[]]

end ReviewMentor.Shell

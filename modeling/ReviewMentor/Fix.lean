import ReviewMentor.Files.Tree
import ReviewMentor.Issue

/-!
# Fixes

Replacing one line of a text, or of a file, and the fixes that are known for single rules.
-/

namespace ReviewMentor

namespace Text

/-- Whether a text ends with a character. -/
def endsWith (cs : List Char) (c : Char) : Bool :=
  cs.getLast? == some c

/-- The lines of a text with their carriage returns; a line break at the end opens no new line. -/
def rawLines (content : List Char) : List (List Char) :=
  let parts := cutAt '\n' content
  if endsWith content '\n' then parts.dropLast else parts

/-- Lines with a line break between neighbours. -/
def joinLines : List (List Char) → List Char
  | [] => []
  | [line] => line
  | line :: rest => line ++ '\n' :: joinLines rest

/-- What a line becomes: the new text without one line break at its end, and with the carriage
return of the old line. -/
def newLine (old new : List Char) : List Char :=
  let new := if endsWith new '\n' then new.dropLast else new
  if endsWith old '\r' && !endsWith new '\r' then new ++ ['\r'] else new

/-- Replaces the line with the given number, counted from one, if there is such a line. -/
def replaceLineChars (content : List Char) (line : Nat) (new : List Char) : List Char :=
  let lines := rawLines content
  if content = [] ∨ line = 0 then content
  else match lines[line - 1]? with
    | none => content
    | some old =>
      joinLines (lines.set (line - 1) (newLine old new)) ++
        (if endsWith content '\n' then ['\n'] else [])

/-- Replaces the line with the given number, counted from one, if there is such a line. -/
def replaceLine (content : String) (line : Nat) (new : String) : String :=
  String.ofList (replaceLineChars content.toList line new.toList)

end Text

/-- Why a line of a file cannot be replaced. -/
inductive FixError where
  | notFound (path : Path)
  | failed (path : Path) (cause : Option FileError)
deriving DecidableEq, Repr

/-- What is said about a failed fix. -/
def FixError.message : FixError → String
  | notFound path => "File not found: " ++ path.text
  | failed path cause => "Failed to rewrite " ++ path.text ++ ": " ++
    (match cause with
      | some e => e.message
      | none => "stream did not contain valid UTF-8")

namespace FileTree

/-- The text of the file that a path leads to; there is none if its bytes are no UTF-8. -/
def readText (t : FileTree) (start : Place) (p : Path) : Except (Option FileError) String :=
  match t.readBytes start p with
  | .error e => .error (some e)
  | .ok bytes => match String.fromUTF8? bytes with
    | some s => .ok s
    | none => .error none

/-- Makes the file that a path leads to hold the given text. -/
def writeText (t : FileTree) (start : Place) (p : Path) (s : String) : Except FileError FileTree :=
  t.writeBytes start p s.toUTF8

/-- Replaces a line of a file; the new text of the file. The file is only written if it changes. -/
def fixLine (t : FileTree) (start : Place) (p : Path) (line : Nat) (new : String) :
    Except FixError (FileTree × String) :=
  if !t.isFile start p then .error (.notFound p)
  else match t.readText start p with
    | .error e => .error (.failed p e)
    | .ok content =>
      let updated := Text.replaceLine content line new
      if updated = content then .ok (t, updated)
      else match t.writeText start p updated with
        | .ok t => .ok (t, updated)
        | .error e => .error (.failed p (some e))

end FileTree

/-- Code with a fix applied, and what was done. -/
structure Suggestion where
  fix : String
  explanation : String
deriving DecidableEq, Repr

namespace Suggestion

/-- The fix for an issue in some code. -/
def ofIssue (code : String) (i : Issue) : Suggestion :=
  if i.code = "D100" then
    ⟨"\"\"\"Module docstring\"\"\"\n" ++ code, "Added missing module docstring"⟩
  else ⟨code, "No automatic fix available for this issue type"⟩

/-- Writes a suggestion. -/
def toJson (s : Suggestion) : Json :=
  .object [("fix", .string s.fix), ("explanation", .string s.explanation)]

end Suggestion

end ReviewMentor

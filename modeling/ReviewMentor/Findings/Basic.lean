import ReviewMentor.Findings.Record
import ReviewMentor.Issue
import ReviewMentor.Json.Numeral
import ReviewMentor.Text.Blank
import ReviewMentor.Text.Letter

/-!
# Findings of analyzers

What an analyzer prints, as a list of issues. Each analyzer prints one JSON document with a record
for every finding; a record that is not well formed is left out, and nothing else is lost with it.
-/

namespace ReviewMentor

/-- The issues of the records that are well formed. -/
def wellFormed (read : Json → Except RecordError Issue) (records : List Json) : List Issue :=
  records.filterMap fun r => (read r).toOption

namespace Ruff

/-- Whether a rule is about an error rather than about style. -/
def category (code : String) : Category :=
  match code.toList with
  | 'E' :: _ | 'F' :: _ => .error
  | _ => .warning

/-- The issue of a record. -/
def issue (root : Root) (record : Json) : Except RecordError Issue := do
  let file ← record.textField "filename"
  let some location := record.member? "location" | .error (.missing "location")
  let line ← location.smallField "row"
  let code ← record.textField "code"
  let message ← record.textField "message"
  pure
    { category := category code, file := root.relative file, line, message, code, analyzer := .ruff
      severity := none, confidence := none, url := record.textField? "url", complexity := none }

/-- The records of a document: an array. -/
def records? (document : Json) : Option (List Json) := document.items?

end Ruff

namespace Pylint

/-- The category of a kind of message. -/
def category (kind : String) : Category :=
  match Text.lower kind with
  | "fatal" | "error" => .error
  | "warning" => .warning
  | "convention" => .convention
  | "refactor" => .refactor
  | _ => .info

/-- The issue of a record. -/
def issue (root : Root) (record : Json) : Except RecordError Issue := do
  let kind ← record.textField "type"
  let file ← record.textField "path"
  let line ← record.smallField "line"
  let message ← record.textField "message"
  let code ← record.textField "message-id"
  pure
    { category := category kind, file := root.relative file, line, message, code,
      analyzer := .pylint, severity := none, confidence := none, url := none, complexity := none }

/-- The records of a document: an array. -/
def records? (document : Json) : Option (List Json) := document.items?

end Pylint

namespace Bandit

/-- The issue of a record. -/
def issue (root : Root) (record : Json) : Except RecordError Issue := do
  let file ← record.textField "filename"
  let line ← record.smallField "line_number"
  let message ← record.textField "issue_text"
  let code ← record.textField "test_id"
  let severity ← record.textField "issue_severity"
  let confidence ← record.textField "issue_confidence"
  pure
    { category := .security, file := root.relative file, line, message, code, analyzer := .bandit
      severity := some (Text.lower severity), confidence := some (Text.lower confidence)
      url := record.textField? "more_info", complexity := none }

/-- The records of a document: an array among its members. -/
def records? (document : Json) : Option (List Json) :=
  (document.member? "results").bind Json.items?

end Bandit

namespace Radon

/-- Up to this complexity a block is trivial and not reported. -/
def trivialComplexity : Nat := 1

/-- Above this complexity the severity is high. -/
def highComplexity : Nat := 10

/-- The issue of a block of a file, unless the block is trivial. -/
def issue? (file : String) (block : Json) : Except RecordError (Option Issue) := do
  let complexity ← block.smallField "complexity"
  if complexity ≤ trivialComplexity then pure none
  else
    let text (name otherwise : String) : String :=
      ((block.member? name).bind Json.text?).getD otherwise
    let message := Text.title (text "type" "item") ++ " '" ++ text "name" "" ++
      "' (complexity: " ++ toString complexity ++ ")"
    pure (some
      { category := .complexity, file, line := ((block.member? "lineno").bind Json.small?).getD 0
        message, code := "RADON-" ++ text "rank" "U", analyzer := .radon
        severity := some (if highComplexity < complexity then "high" else "medium")
        confidence := none, url := none, complexity := some complexity })

/-- The issues of the blocks of a file. -/
def fileIssues (root : Root) (file : String) (blocks : Json) : List Issue :=
  ((blocks.items?.getD []).filter Json.isObject).filterMap fun block =>
    ((issue? (root.relative file) block).toOption).join

/-- The files of a document and what is said about each. The document may be the text of another
one. -/
def files? (document : Json) : Option (List (String × Json)) :=
  let inner? := match document with
    | .string text => Json.parse? text
    | j => some j
  match inner? with
  | some (.object members) => some members
  | _ => none

end Radon

namespace Analyzer

/-- The issues that a document says. -/
def issuesOf (a : Analyzer) (root : Root) (document : Json) : List Issue :=
  match a with
  | ruff => wellFormed (Ruff.issue root) ((Ruff.records? document).getD [])
  | pylint => wellFormed (Pylint.issue root) ((Pylint.records? document).getD [])
  | bandit => wellFormed (Bandit.issue root) ((Bandit.records? document).getD [])
  | radon => ((Radon.files? document).getD []).flatMap fun f => Radon.fileIssues root f.1 f.2

/-- The issues that an analyzer printed. -/
def normalize (a : Analyzer) (output : String) (root : Root) : List Issue :=
  if Text.isAllBlank output then []
  else match Json.parse? output with
    | some document => a.issuesOf root document
    | none => []

/-- The command that runs an analyzer on a target. -/
def command (a : Analyzer) (program : String) (config target : String) : List String :=
  match a with
  | ruff =>
    [program, "check", "--config", config, "--output-format=json", "--no-cache", target]
  | pylint =>
    [program, "--rcfile=" ++ config, "--output-format=json", "--recursive=y", target]
  | bandit => [program, "-r", "-f", "json", "-c", config, target]
  | radon => [program, "cc", "-j", target]

end Analyzer

end ReviewMentor

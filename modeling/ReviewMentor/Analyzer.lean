import ReviewMentor.Json.Decode

/-!
# Analyzers and kinds of projects

The four programs that look for findings, and the kinds of projects that decide which of the two
linters is the main one.
-/

namespace ReviewMentor

/-- A program that reports findings. -/
inductive Analyzer where
  | ruff
  | pylint
  | bandit
  | radon
deriving DecidableEq, Repr, Inhabited

namespace Analyzer

/-- The name of an analyzer. -/
def name : Analyzer → String
  | ruff => "ruff"
  | pylint => "pylint"
  | bandit => "bandit"
  | radon => "radon"

/-- All analyzers, in the order in which they are listed. -/
def all : List Analyzer := [bandit, ruff, pylint, radon]

/-- The analyzer with a name. -/
def named? (s : String) : Option Analyzer :=
  all.find? (·.name = s)

/-- Whether the analyzer is left out when there are no sources. Radon runs on an empty tree. -/
def needsSources (a : Analyzer) : Bool :=
  a != radon

/-- The exit codes that mean a completed run. Pylint reports the kinds of its messages in bits. -/
def successCodes : Analyzer → List Int
  | ruff => [0, 1]
  | pylint => (List.range 16).map fun n => Int.ofNat (2 * n)
  | bandit => [0, 1]
  | radon => [0]

/-- The name of the file that configures the analyzer. -/
def configFile? : Analyzer → Option String
  | ruff => some "ruff.toml"
  | pylint => some ".pylintrc"
  | bandit => some ".bandit"
  | radon => none

/-- Writes an analyzer. -/
def toJson (a : Analyzer) : Json := .string a.name

/-- Reads an analyzer. -/
def read : Json.Decode Analyzer := Json.Draft.word named?

end Analyzer

/-- What a project is about. -/
inductive ProjectKind where
  | web
  | embedded
  | security
  | unknown
deriving DecidableEq, Repr, Inhabited

namespace ProjectKind

/-- The word for a kind. -/
def name : ProjectKind → String
  | web => "web"
  | embedded => "embedded"
  | security => "security"
  | unknown => "unknown"

/-- The kind with a name. -/
def named? (s : String) : Option ProjectKind :=
  [web, embedded, security, unknown].find? (·.name = s)

/-- The linter that looks at projects of this kind. -/
def mainLinter : ProjectKind → Analyzer
  | web => .ruff
  | embedded | security | unknown => .pylint

/-- Writes a kind. -/
def toJson (k : ProjectKind) : Json := .string k.name

/-- Reads a kind. -/
def read : Json.Decode ProjectKind := Json.Draft.word named?

end ProjectKind

end ReviewMentor

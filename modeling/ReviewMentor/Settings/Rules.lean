import ReviewMentor.Analyzer
import ReviewMentor.Json.Printer
import ReviewMentor.Toml.Printer

/-!
# Rules of analyzers

Which rules the analyzers look at, and the files that tell them. Each analyzer has a format of its
own; radon takes no such file.
-/

namespace ReviewMentor

/-- Rules for ruff. -/
structure RuffRules where
  select : List String
  ignore : List String
  /-- The rules that do not count in files of a pattern; patterns in code point order. -/
  perFile : List (String × List String)
deriving DecidableEq, Repr

/-- Rules for pylint. -/
structure PylintRules where
  plugins : List String
  disable : List String
deriving DecidableEq, Repr

/-- Rules for bandit. -/
structure BanditRules where
  targets : List String
  recursive : Bool
  confidence : String
  severity : String
  tests : List String
  skips : List String
deriving DecidableEq, Repr

/-- Rules for all analyzers. -/
structure LintRules where
  ruff : RuffRules
  pylint : PylintRules
  bandit : BanditRules
deriving DecidableEq, Repr

/-- Reads an array of texts. -/
def readTexts : Json.Decode (List String) := Json.Draft.list Json.Draft.text

namespace RuffRules

/-- The rules where nothing else is said. -/
def standard : RuffRules :=
  ⟨["E", "F", "W", "B", "I", "UP", "D"], ["E501", "D203", "D212"],
    [("__init__.py", ["F401"]), ("tests/*", ["S101"])]⟩

/-- The fields of written rules. -/
def record : Json.Record RuffRules :=
  (Json.Record.start RuffRules.mk)
    |>.defaults "select" readTexts standard.select
    |>.defaults "ignore" readTexts standard.ignore
    |>.defaults "per_file_ignores" (fun d => (d.table readTexts).map Ordered.ofPairs)
      standard.perFile

/-- Writes rules. -/
def toJson (r : RuffRules) : Json :=
  .object [("select", .strings r.select), ("ignore", .strings r.ignore),
    ("per_file_ignores", .object (r.perFile.map fun p => (p.1, .strings p.2)))]

/-- The file for ruff. -/
def configText (r : RuffRules) : String :=
  let member (name : String) (items : List String) : List Char :=
    Toml.writeMember name.toList (items.map String.toList)
  String.ofList
    ("[lint]\n".toList ++ member "select" r.select ++ member "ignore" r.ignore ++
      "\n[lint.per-file-ignores]\n".toList ++ r.perFile.flatMap fun p => member p.1 p.2)

end RuffRules

namespace PylintRules

/-- The rules where nothing else is said. -/
def standard : PylintRules :=
  ⟨["pylint.extensions.mccabe"], ["missing-docstring", "too-few-public-methods", "invalid-name"]⟩

/-- The fields of written rules. -/
def record : Json.Record PylintRules :=
  (Json.Record.start PylintRules.mk)
    |>.defaults "load_plugins" readTexts standard.plugins
    |>.defaults "disable" readTexts standard.disable

/-- Writes rules. -/
def toJson (r : PylintRules) : Json :=
  .object [("load_plugins", .strings r.plugins), ("disable", .strings r.disable)]

/-- The file for pylint. -/
def configText (r : PylintRules) : String :=
  "[MASTER]\nload-plugins = " ++ Text.join "," r.plugins ++
    "\n\n[MESSAGES CONTROL]\ndisable = " ++ Text.join "," r.disable ++ "\n"

end PylintRules

namespace BanditRules

/-- The rules where nothing else is said. -/
def standard : BanditRules := ⟨["*"], true, "low", "low", [], []⟩

/-- The fields of written rules. -/
def record : Json.Record BanditRules :=
  (Json.Record.start BanditRules.mk)
    |>.defaults "targets" readTexts standard.targets
    |>.defaults "recursive" Json.Draft.truth standard.recursive
    |>.defaults "confidence" Json.Draft.text standard.confidence
    |>.defaults "severity" Json.Draft.text standard.severity
    |>.defaults "tests" readTexts standard.tests
    |>.defaults "skips" readTexts standard.skips

/-- The members of written rules, given the name of the targets. -/
def members (targets : String) (r : BanditRules) : List (String × Json) :=
  [(targets, .strings r.targets), ("recursive", .bool r.recursive),
    ("confidence", .string r.confidence), ("severity", .string r.severity),
    ("tests", .strings r.tests), ("skips", .strings r.skips)]

/-- Writes rules. -/
def toJson (r : BanditRules) : Json := .object (r.members "targets")

/-- The file for bandit. -/
def configText (r : BanditRules) : String :=
  (Json.object (r.members "target")).pretty

end BanditRules

namespace LintRules

/-- The rules where nothing else is said. -/
def standard : LintRules := ⟨.standard, .standard, .standard⟩

/-- The fields of written rules. -/
def record (surplus : Bool) : Json.Record LintRules :=
  (Json.Record.start LintRules.mk)
    |>.defaults "ruff" (RuffRules.record.readWith surplus) .standard
    |>.defaults "pylint" (PylintRules.record.readWith surplus) .standard
    |>.defaults "bandit" (BanditRules.record.readWith surplus) .standard

/-- Reads rules from JSON. -/
def read : Json.Decode LintRules := (record false).read

/-- Writes rules. -/
def toJson (r : LintRules) : Json :=
  .object [("ruff", r.ruff.toJson), ("pylint", r.pylint.toJson), ("bandit", r.bandit.toJson)]

/-- The file for an analyzer, if it takes one. -/
def configText? (r : LintRules) : Analyzer → Option String
  | .ruff => some r.ruff.configText
  | .pylint => some r.pylint.configText
  | .bandit => some r.bandit.configText
  | .radon => none

end LintRules

end ReviewMentor

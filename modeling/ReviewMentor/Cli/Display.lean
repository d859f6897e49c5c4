import ReviewMentor.Analyzer
import ReviewMentor.Review

/-!
# Reviews as text

How a review is shown in a terminal: one paragraph for each report, with the issues sorted by file
and line.
-/

namespace ReviewMentor

namespace Issue

/-- Whether an issue stands before another one in the files, or at the same place. -/
def precedes (a b : Issue) : Bool :=
  a.file < b.file || (a.file = b.file && a.line ≤ b.line)

/-- The line that shows an issue. -/
def display (i : Issue) : String :=
  "  " ++ i.file ++ ":" ++ toString i.line ++ " " ++ i.code ++ " " ++ i.message ++ "\n"

end Issue

namespace Report

/-- The paragraph that shows a report. -/
def display (title : String) (r : Report) : String :=
  match r.error.filter fun _ => !r.success with
  | some e => "⚠ " ++ title ++ ": " ++ e ++ "\n\n"
  | none =>
    if r.issues.isEmpty then "✓ " ++ title ++ ": no issues\n\n"
    else
      "● " ++ title ++ ": " ++ toString r.issues.length ++ " issues\n" ++
        String.join ((r.issues.mergeSort Issue.precedes).map Issue.display) ++ "\n"

end Report

/-- Milliseconds as seconds with one decimal. -/
def displaySeconds (millis : Nat) : String :=
  let tenths := (millis + 50) / 100
  toString (tenths / 10) ++ "." ++ toString (tenths % 10)

namespace Review

/-- The text that shows a review of what lies at a path, which took some milliseconds. -/
def display (r : Review) (path : String) (millis : Nat) : String :=
  "\n🦩 pink-review " ++ path ++ "  (" ++ r.kind.name ++ " project, " ++ r.level.name ++
    " level)\n\n" ++ r.security.display "Security (bandit)" ++
    r.main.display ("Linting (" ++ r.linter.name ++ ")") ++
    r.complexity.display ("Complexity (" ++ r.complexityTool.name ++ ")") ++
    "Total: " ++ toString r.total ++ " issues in " ++ displaySeconds millis ++ "s\n"

end Review

end ReviewMentor

import ReviewMentor.Issue
import ReviewMentor.Level

/-!
# Reports and reviews

A report is what one analyzer found; a review puts the reports on security, style and complexity
of a project together.
-/

namespace ReviewMentor

/-- What one analyzer found. -/
structure Report where
  success : Bool
  issues : List Issue
  error : Option String
deriving DecidableEq, Repr

namespace Report

/-- The report of a run that came to its end. -/
def ok (issues : List Issue) : Report := ⟨true, issues, none⟩

/-- The report of a run that failed. -/
def failed (error : String) : Report := ⟨false, [], some error⟩

/-- The report without what a learner of the level is not shown. -/
def filterFor (level : Level) (r : Report) : Report :=
  if level = .beginner then { r with issues := r.issues.filter fun i => !i.isAdvancedOnly } else r

/-- Writes a report, given how an issue is written. -/
def encode (issue : Issue → Json) (r : Report) : Json :=
  .object [("success", .bool r.success), ("issues", .array (r.issues.map issue)),
    ("error", .optional .string r.error)]

/-- Writes a report. -/
def toJson (r : Report) : Json := r.encode Issue.toJson

/-- Writes a report together with the summaries of its issues. -/
def view (r : Report) : Json := r.encode Issue.view

/-- The fields of a written report. -/
def record : Json.Record Report :=
  (Json.Record.start Report.mk)
    |>.needs ["success"] Json.Draft.truth
    |>.defaults "issues" (Json.Draft.list Issue.read) []
    |>.defaults "error" (Json.Draft.nullable Json.Draft.text) none

/-- Reads a report. -/
def read : Json.Decode Report := record.read

end Report

/-- What all analyzers found in a project. -/
structure Review where
  kind : ProjectKind
  linter : Analyzer
  complexityTool : Analyzer
  level : Level
  security : Report
  main : Report
  complexity : Report
deriving DecidableEq, Repr

namespace Review

/-- The number of issues in all reports. -/
def total (r : Review) : Nat :=
  r.security.issues.length + r.main.issues.length + r.complexity.issues.length

/-- Puts new issues of one file in the place of its old ones in the main report. -/
def replaceFileIssues (file : String) (issues : List Issue) (r : Review) : Review :=
  { r with main :=
    { r.main with issues := r.main.issues.filter (fun i => i.file != file) ++ issues } }

/-- The members of a written review, given how an issue is written. -/
def members (issue : Issue → Json) (r : Review) : List (String × Json) :=
  [("project_type", r.kind.toJson), ("linter", r.linter.toJson),
    ("complexity", r.complexityTool.toJson), ("experience_level", r.level.toJson),
    ("security_scan", r.security.encode issue), ("main_analysis", r.main.encode issue),
    ("complexity_analysis", r.complexity.encode issue)]

/-- Writes a review. -/
def toJson (r : Review) : Json := .object (r.members Issue.toJson)

/-- Writes a review together with the summaries of its issues. -/
def view (r : Review) : Json := .object (r.members Issue.view)

/-- The fields of a written review. -/
def record : Json.Record Review :=
  (Json.Record.start Review.mk)
    |>.needs ["project_type"] ProjectKind.read
    |>.needs ["linter"] Analyzer.read
    |>.needs ["complexity"] Analyzer.read
    |>.needs ["experience_level"] Level.read
    |>.needs ["security_scan"] Report.read
    |>.needs ["main_analysis"] Report.read
    |>.needs ["complexity_analysis"] Report.read

/-- Reads a review. -/
def read : Json.Decode Review := record.read

end Review

end ReviewMentor

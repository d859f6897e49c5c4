import ReviewMentor.Analysis.Invoker

/-!
# Analysis of a project

An analysis goes through four stages: the scan for security, the classification, the main linter
and the complexity. Results are recorded one by one, so that an analysis that is given up still has
those that were recorded. An analysis is a machine that takes small steps; giving it up is a flag
that it looks at between some of them.
-/

namespace ReviewMentor

/-- A stage of an analysis. -/
inductive Stage where
  | security
  | classify
  | linter (a : Analyzer)
  | complexity
deriving DecidableEq, Repr

/-- The name of a stage. -/
def Stage.name : Stage → String
  | security => "security"
  | classify => "classify"
  | linter a => "main:" ++ a.name
  | complexity => "complexity"

/-- Why a project cannot be analyzed. -/
structure RootError where
  path : Path
  cause : FileError
deriving DecidableEq, Repr

/-- What is said about a project that cannot be analyzed. -/
def RootError.message (e : RootError) : String :=
  "Cannot read project directory " ++ e.path.text ++ ": " ++ e.cause.message

/-- The results that have been recorded. -/
structure PartialReview where
  kind : Option ProjectKind
  security : Option Report
  main : Option Report
  complexity : Option Report
deriving DecidableEq, Repr

namespace PartialReview

/-- Nothing recorded. -/
def empty : PartialReview := ⟨none, none, none, none⟩

/-- The review of what was recorded; what is missing failed for the given reason. -/
def finish (p : PartialReview) (level : Level) (reason : String) : Review :=
  let kind := p.kind.getD .unknown
  { kind, linter := kind.mainLinter, complexityTool := .radon, level
    security := p.security.getD (.failed reason)
    main := p.main.getD (.failed reason)
    complexity := p.complexity.getD (.failed reason) }

end PartialReview

/-- What an analysis does next. -/
inductive Phase where
  /-- Runs bandit. -/
  | scan
  /-- Records what bandit found. -/
  | recordScan (r : Report)
  /-- Looks whether it is given up. -/
  | afterScan
  /-- Classifies the project. -/
  | classify
  /-- Runs the main linter. -/
  | lint (kind : ProjectKind)
  /-- Records what the main linter found. -/
  | recordLint (r : Report)
  /-- Looks whether it is given up. -/
  | afterLint
  /-- Runs radon. -/
  | measure
  /-- Records what radon found. -/
  | recordMeasure (r : Report)
  | done
deriving DecidableEq, Repr

/-- A running analysis: what it does next, what it has recorded, and the stages it has announced. -/
structure Analysis where
  phase : Phase
  recorded : PartialReview
  stages : List Stage
deriving DecidableEq, Repr

namespace Analysis

/-- An analysis that has not begun. -/
def initial : Analysis := ⟨.scan, .empty, []⟩

/-- One step of an analysis. `analyze` runs an analyzer, `classify` classifies the project, and
`cancelled` says whether the analysis is given up. -/
def step {M : Type → Type} [Monad M] (analyze : Analyzer → M Report) (classify : M ProjectKind)
    (level : Level) (cancelled : Bool) (a : Analysis) : M Analysis :=
  match a.phase with
  | .scan => do
    let r ← analyze .bandit
    pure { a with phase := .recordScan r, stages := a.stages ++ [.security] }
  | .recordScan r =>
    pure { a with phase := .afterScan, recorded := { a.recorded with security := some r } }
  | .afterScan => pure { a with phase := if cancelled then .done else .classify }
  | .classify => do
    let kind ← classify
    pure
      { phase := .lint kind, recorded := { a.recorded with kind := some kind }
        stages := a.stages ++ [.classify] }
  | .lint kind => do
    let r ← analyze kind.mainLinter
    pure { a with
      phase := .recordLint (r.filterFor level), stages := a.stages ++ [.linter kind.mainLinter] }
  | .recordLint r =>
    pure { a with phase := .afterLint, recorded := { a.recorded with main := some r } }
  | .afterLint => pure { a with phase := if cancelled then .done else .measure }
  | .measure => do
    let r ← analyze .radon
    pure { a with phase := .recordMeasure r, stages := a.stages ++ [.complexity] }
  | .recordMeasure r =>
    pure { a with phase := .done, recorded := { a.recorded with complexity := some r } }
  | .done => pure a

/-- The number of steps that every analysis takes at most. -/
def stepCount : Nat := 9

/-- Takes steps until the analysis is done or it has to stop. -/
def advance {M : Type → Type} [Monad M] (next : Analysis → M Analysis) (stop : M Bool) :
    Nat → Analysis → M Analysis
  | 0, a => pure a
  | steps + 1, a => do
    if (← stop) || a.phase = .done then pure a else advance next stop steps (← next a)

end Analysis

/-- What analyzes projects. -/
structure Pipeline where
  invoker : Invoker
  machine : Machine

namespace Pipeline

/-- One step of the analysis of a project. -/
def step (p : Pipeline) (root : Path) (level : Level) (cancelled : Bool) :
    Analysis → StateM World Analysis :=
  Analysis.step (fun a => p.invoker.analyze p.machine a root root cancelled)
    (do pure ((← get).files.classify p.machine.cwd root)) level cancelled

/-- Accepts a root that is a directory. -/
def checkRoot (p : Pipeline) (files : FileTree) (root : Path) : Except RootError Unit :=
  match files.find p.machine.cwd true root with
  | .error e => .error ⟨root, e⟩
  | .ok place => if files.hasDirectory place then .ok () else .error ⟨root, .notDirectory⟩

/-- What is said about results that are missing although nothing went wrong. -/
def notRun : String := "analysis did not run"

/-- What is said about results that are missing because there was no more time. -/
def outOfTime (millis : Nat) : String :=
  "analysis timed out after " ++ toString (millis / 1000) ++ "s"

/-- Analyzes a project. -/
def analyze (p : Pipeline) (root : Path) (level : Level) :
    Work RootError (Review × List Stage) := do
  ExceptT.mk (do pure (p.checkRoot (← get).files root))
  let a ← Work.ofState
    (Analysis.advance (p.step root level false) (pure false) Analysis.stepCount .initial)
  pure (a.recorded.finish level notRun, a.stages)

/-- Analyzes a project as far as it gets in the given number of milliseconds. -/
def analyzeWithin (p : Pipeline) (root : Path) (level : Level) (millis : Nat) :
    Work RootError Review := do
  ExceptT.mk (do pure (p.checkRoot (← get).files root))
  let deadline := (← get).clock + millis
  let late : StateM World Bool := do pure (deadline ≤ (← get).clock)
  let a ← Work.ofState
    (Analysis.advance (p.step root level false) late Analysis.stepCount .initial)
  let reason := if a.phase = .done then notRun else outOfTime millis
  pure (a.recorded.finish level reason)

/-- Runs ruff on one file of a project. -/
def reanalyze (p : Pipeline) (root file : Path) (level : Level) : StateM World Report := do
  let r ← p.invoker.analyze p.machine .ruff root (root.join file) false
  pure (r.filterFor level)

end Pipeline

end ReviewMentor

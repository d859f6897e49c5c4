import ReviewMentor.Analysis.Outcome
import ReviewMentor.Classify
import ReviewMentor.Findings.Basic
import ReviewMentor.Fix
import ReviewMentor.Review
import ReviewMentor.Settings.Basic

/-!
# Running analyzers

Writing the file that configures an analyzer, running it on a project or one of its files, and
reading what it prints. An analyzer that needs sources is left out where there are none.
-/

namespace ReviewMentor

/-- What came of running an analyzer. -/
structure ToolRun where
  analyzer : Analyzer
  success : Bool
  stdout : String
  stderr : String
  code : Option Int
  error : Option String
  skipped : Bool
  timedOut : Bool
  cancelled : Bool
deriving DecidableEq, Repr

namespace ToolRun

/-- An analyzer that was left out. -/
def left (a : Analyzer) : ToolRun := ⟨a, true, "", "", none, none, true, false, false⟩

/-- An analyzer that could not be run. -/
def failed (a : Analyzer) (error : String) : ToolRun :=
  ⟨a, false, "", "", none, some error, false, false, false⟩

/-- What is said about an analyzer that failed: its exit code, and the first line that it printed
about it. -/
def exitError (a : Analyzer) (code : Int) (stderr : String) : String :=
  let exited := a.name ++ " exited with code " ++ toString code
  match (Text.lines stderr).find? fun line => !Text.isAllBlank line with
  | some line => exited ++ ": " ++ Text.trim line
  | none => exited

/-- What came of running an analyzer, given the exit codes that mean a completed run. -/
def ofOutcome (a : Analyzer) (o : Outcome) (successCodes : List Int) : ToolRun :=
  let success := o.code?.any fun code => successCodes.contains code
  { analyzer := a, success, stdout := o.stdout, stderr := o.stderr, code := o.code?
    error := match o.error?, o.code? with
      | some e, _ => some e
      | none, some code => if success then none else some (exitError a code o.stderr)
      | none, none => none
    skipped := false, timedOut := o.isTimedOut, cancelled := o.isCancelled }

/-- The report of a run. -/
def report (r : ToolRun) (root : Root) : Report :=
  ⟨r.success, r.analyzer.normalize r.stdout root, r.error⟩

end ToolRun

/-- What runs analyzers: their settings, and where their files lie. -/
structure Invoker where
  settings : ToolsSettings
  configDirectory : Path
  /-- The number in the names of files that are being written. -/
  writer : Nat

namespace Invoker

/-- The file in which the configuration of an analyzer is written before it is moved. -/
def stagingName (v : Invoker) (file : String) : String :=
  String.ofList (file.toList.dropWhile (· = '.')) ++ "." ++ toString v.writer ++ ".tmp"

/-- Writes the file that configures an analyzer; there is none for radon. -/
def ensureConfig (v : Invoker) (start : Place) (a : Analyzer) : Disk FileError (Option Path) :=
  match a.configFile?, v.settings.rules.configText? a with
  | some file, some content => do
    let path := v.configDirectory.child file
    let staging := v.configDirectory.child (v.stagingName file)
    Disk.of fun t => t.makeDirectories start v.configDirectory
    Disk.change fun t => t.writeText start staging content
    Disk.change fun t => t.rename start staging path
    pure (some path)
  | _, _ => pure none

/-- The command that runs an analyzer on a target. -/
def command (v : Invoker) (start : Place) (a : Analyzer) (target : Path) :
    Disk FileError (List String) := do
  let config? ← v.ensureConfig start a
  pure (a.command (v.settings.program a) ((config?.map Path.text).getD "") target.text)

/-- The files that configure the analyzers, by the names of the analyzers. -/
def snapshot (v : Invoker) (start : Place) : Disk FileError (List (String × String)) :=
  [Analyzer.ruff, .pylint, .bandit].foldlM (fun configs a => do
    match ← v.ensureConfig start a with
    | none => pure configs
    | some path =>
      let text ← Disk.ask fun t => (t.readText start path).mapError (·.getD .notFound)
      pure (Ordered.put a.name text configs)) []

/-- Runs an analyzer on a target in a project. -/
def run (v : Invoker) (m : Machine) (a : Analyzer) (root target : Path) (cancelled : Bool) :
    StateM World ToolRun := do
  let world ← get
  if a.needsSources && !world.files.hasSources m.cwd target then pure (.left a)
  else
    let (files, command) := (v.command m.cwd a target).run world.files
    set { world with files }
    match command with
    | .error e => pure (.failed a ("Failed to write " ++ a.name ++ " config: " ++ e.message))
    | .ok argv =>
      let o ← m.runTool argv a.name (v.settings.timeout a) (some root) cancelled
      pure (.ofOutcome a o (v.settings.successCodes a))

/-- The root of a project as analyzers may spell it. -/
def rootOf (m : Machine) (files : FileTree) (root : Path) : Root :=
  ⟨root, (files.canonical m.cwd root).toOption⟩

/-- Runs an analyzer on a target in a project and reads what it prints. -/
def analyze (v : Invoker) (m : Machine) (a : Analyzer) (root target : Path) (cancelled : Bool) :
    StateM World Report := do
  let r ← v.run m a root target cancelled
  pure (r.report (rootOf m (← get).files root))

end Invoker

end ReviewMentor

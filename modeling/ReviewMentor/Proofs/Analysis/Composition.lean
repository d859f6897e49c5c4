import ReviewMentor.Proofs.Analysis.Outcomes

/-!
# How an analysis is put together

An analysis runs three analyzers one after the other, and classifies the project after the first of
them. Each of the three results tells of its own run and of nothing else: it stays as it is when
another analyzer does something else.
-/

namespace ReviewMentor

open FileTree Effect

variable {t : FileTree} {w : World} {a : Analyzer}

/-! ### The course of an analysis -/

theorem Analysis.advance_initial {M : Type → Type} [Monad M] [LawfulMonad M]
    (analyze : Analyzer → M Report) (classify : M ProjectKind) (level : Level) :
    Analysis.advance (Analysis.step analyze classify level false) (pure false) Analysis.stepCount
        .initial = (do
      let scan ← analyze .bandit
      let kind ← classify
      let lint ← analyze kind.mainLinter
      let measure ← analyze .radon
      pure ⟨.done, ⟨some kind, some scan, some (lint.filterFor level), some measure⟩,
        [.security, .classify, .linter kind.mainLinter, .complexity]⟩) := by
  simp [stepCount, advance, step, initial]

/-- The runs of which an analysis consists, and the worlds that they leave. -/
structure Course where
  scan : ToolRun
  scanned : World
  kind : ProjectKind
  lint : ToolRun
  linted : World
  measure : ToolRun
  measured : World

namespace Pipeline

variable {p q : Pipeline} {root : Path} {level : Level}

/-- The runs of an analysis, each in the world that the one before it left. -/
def course (p : Pipeline) (root : Path) (w : World) : Course :=
  let run (a : Analyzer) := StateT.run (p.invoker.run p.machine a root root false)
  let (scan, scanned) := run .bandit w
  let kind := scanned.files.classify p.machine.cwd root
  let (lint, linted) := run kind.mainLinter scanned
  let (measure, measured) := run .radon linted
  { scan, scanned, kind, lint, linted, measure, measured }

theorem course_of_runs {scan lint measure : ToolRun} {kind : ProjectKind}
    {w scanned linted measured : World}
    (hscan : StateT.run (p.invoker.run p.machine .bandit root root false) w = (scan, scanned))
    (hkind : scanned.files.classify p.machine.cwd root = kind)
    (hlint : StateT.run (p.invoker.run p.machine kind.mainLinter root root false) scanned =
      (lint, linted))
    (hmeasure : StateT.run (p.invoker.run p.machine .radon root root false) linted =
      (measure, measured)) :
    p.course root w = ⟨scan, scanned, kind, lint, linted, measure, measured⟩ := by
  unfold course
  simp only [hscan, hkind, hlint, hmeasure]

/-- The review that tells of a course. -/
def reviewOf (p : Pipeline) (root : Path) (w : World) (level : Level) : Review :=
  let c := p.course root w
  let report (r : ToolRun) (after : World) := r.report (Invoker.rootOf p.machine after.files root)
  { kind := c.kind, linter := c.kind.mainLinter, complexityTool := .radon, level
    security := report c.scan c.scanned
    main := (report c.lint c.linted).filterFor level
    complexity := report c.measure c.measured }

theorem run_analyze {c : Bool} {r : ToolRun} {w w' : World}
    (h : StateT.run (p.invoker.run p.machine a root root c) w = (r, w')) :
    StateT.run (p.invoker.analyze p.machine a root root c) w =
      (r.report (Invoker.rootOf p.machine w'.files root), w') := by
  unfold Invoker.analyze
  rw [StateT.run_bind, h]
  rfl

theorem kind_reviewOf (p : Pipeline) (root : Path) (w : World) (level : Level) :
    (p.reviewOf root w level).kind = (p.course root w).kind := by
  rw [reviewOf]

theorem linter_reviewOf (p : Pipeline) (root : Path) (w : World) (level : Level) :
    (p.reviewOf root w level).linter = (p.course root w).kind.mainLinter := by
  rw [reviewOf]

/-- What has been recorded when an analysis is done. -/
def finished (p : Pipeline) (root : Path) (w : World) (level : Level) : Analysis :=
  let r := p.reviewOf root w level
  ⟨.done, ⟨some r.kind, some r.security, some r.main, some r.complexity⟩,
    [.security, .classify, .linter r.linter, .complexity]⟩

theorem run_advance (p : Pipeline) (root : Path) (level : Level) (w : World) :
    StateT.run (Analysis.advance (p.step root level false) (pure false) Analysis.stepCount
      .initial) w = (p.finished root w level, (p.course root w).measured) := by
  rcases hscan : StateT.run (p.invoker.run p.machine .bandit root root false) w with
    ⟨scan, scanned⟩
  generalize hkind : scanned.files.classify p.machine.cwd root = kind
  rcases hlint : StateT.run (p.invoker.run p.machine kind.mainLinter root root false) scanned with
    ⟨lint, linted⟩
  rcases hmeasure : StateT.run (p.invoker.run p.machine .radon root root false) linted with
    ⟨measure, measured⟩
  have hcourse := course_of_runs hscan hkind hlint hmeasure
  have hclassify : StateT.run
      (do pure ((← get).files.classify p.machine.cwd root) : StateM World ProjectKind) scanned =
        (kind, scanned) := by
    rw [← hkind]
    rfl
  unfold step finished reviewOf
  rw [Analysis.advance_initial, hcourse, StateT.run_bind, run_analyze hscan]
  show StateT.run (_ >>= _) scanned = _
  rw [StateT.run_bind, hclassify]
  show StateT.run (_ >>= _) scanned = _
  rw [StateT.run_bind, run_analyze hlint]
  show StateT.run (_ >>= _) linted = _
  rw [StateT.run_bind, run_analyze hmeasure]
  rfl

/-- An analysis of a project follows its course. -/
theorem analyze_eq (h : p.checkRoot w.files root = .ok ()) (level : Level) :
    outcome (p.analyze root level) w = .ok (p.reviewOf root w level,
        [.security, .classify, .linter (p.course root w).kind.mainLinter, .complexity]) ∧
      after (p.analyze root level) w = (p.course root w).measured := by
  have hroot := outcome_checkRoot h
  have hdone := p.run_advance root level w
  have hrun : outcome (Work.ofState (Analysis.advance (p.step root level false) (pure false)
      Analysis.stepCount .initial) : Work RootError Analysis) w =
        .ok (p.finished root w level) := by
    rw [Work.outcome_ofState, hdone]
  have hleft : after (Work.ofState (Analysis.advance (p.step root level false) (pure false)
      Analysis.stepCount .initial) : Work RootError Analysis) w = (p.course root w).measured := by
    rw [Work.after_ofState, hdone]
  unfold analyze
  rw [outcome_bind_ok hroot, after_bind_ok hroot]
  show outcome (_ >>= _) w = _ ∧ after (_ >>= _) w = _
  rw [outcome_bind_ok hrun, after_bind_ok hrun, hleft]
  exact ⟨rfl, rfl⟩

/-- The runs of a course show what comes of the analyzers as the files are, and start one command
each at most. -/
theorem course_eq (p : Pipeline) (root : Path) (w : World) :
    let c := p.course root w
    let trial := p.invoker.trial p.machine
    let filesAfter := p.invoker.filesAfter p.machine
    c.scan = trial .bandit root w.files ∧ c.scanned.files = filesAfter .bandit root w.files ∧
    c.kind = c.scanned.files.classify p.machine.cwd root ∧
    c.lint = trial c.kind.mainLinter root c.scanned.files ∧
    c.linted.files = filesAfter c.kind.mainLinter root c.scanned.files ∧
    c.measure = trial .radon root c.linted.files ∧
    c.measured.files = filesAfter .radon root c.linted.files ∧
    ∃ scan lint measure : Option Call,
      c.measured.calls = w.calls ++ scan.toList ++ lint.toList ++ measure.toList ∧
      (∀ x ∈ scan, p.invoker.Runs .bandit root x.argv ∧
        Invoker.leavesOut p.machine .bandit root w.files = false) ∧
      (∀ x ∈ lint, p.invoker.Runs c.kind.mainLinter root x.argv ∧
        Invoker.leavesOut p.machine c.kind.mainLinter root c.scanned.files = false) ∧
      ∀ x ∈ measure, p.invoker.Runs .radon root x.argv := by
  obtain ⟨scanned, scan, hscan, hscanned, hfirst, hstarted⟩ :=
    p.invoker.run_eq p.machine .bandit root w
  generalize hkind : scanned.files.classify p.machine.cwd root = kind
  obtain ⟨linted, lint, hlint, hlinted, hsecond, hstarted'⟩ :=
    p.invoker.run_eq p.machine kind.mainLinter root scanned
  obtain ⟨measured, measure, hmeasure, hmeasured, hthird, hstarted''⟩ :=
    p.invoker.run_eq p.machine .radon root linted
  intro c trial filesAfter
  have hc : c = _ := course_of_runs hscan hkind hlint hmeasure
  rw [hc]
  refine ⟨rfl, hscanned, hkind.symm, rfl, hlinted, rfl, hmeasured, scan, lint, measure, ?_,
    hstarted, hstarted', fun x hx => (hstarted'' x hx).1⟩
  rw [hthird, hsecond, hfirst]

/-! ### What one analyzer does -/

/-- Two pipelines that differ in nothing but what one analyzer does: where its program is, how long
it may run, which exit codes mean a completed run, and what comes of starting it. -/
structure DifferOnlyIn (a : Analyzer) (root : Path) (p q : Pipeline) : Prop where
  cwd : q.machine.cwd = p.machine.cwd
  configs : ∀ b, q.invoker.ensureConfig p.machine.cwd b = p.invoker.ensureConfig p.machine.cwd b
  program : ∀ b, b ≠ a → q.invoker.settings.program b = p.invoker.settings.program b
  timeout : ∀ b, b ≠ a → q.invoker.settings.timeout b = p.invoker.settings.timeout b
  successCodes : ∀ b, b ≠ a →
    q.invoker.settings.successCodes b = p.invoker.settings.successCodes b
  launch : ∀ b, b ≠ a → ∀ argv t, p.invoker.Runs b root argv →
    q.machine.launch argv (some root) t = p.machine.launch argv (some root) t

namespace DifferOnlyIn

variable {b : Analyzer}

theorem leavesOut_eq (h : DifferOnlyIn a root p q) (b : Analyzer) (t : FileTree) :
    Invoker.leavesOut q.machine b root t = Invoker.leavesOut p.machine b root t := by
  rw [Invoker.leavesOut, Invoker.leavesOut, h.cwd]

theorem rootOf_eq (h : DifferOnlyIn a root p q) (t : FileTree) :
    Invoker.rootOf q.machine t root = Invoker.rootOf p.machine t root := by
  rw [Invoker.rootOf, Invoker.rootOf, h.cwd]

/-- The files do not show what the analyzer does. -/
theorem filesAfter_eq (h : DifferOnlyIn a root p q) (b : Analyzer) (t : FileTree) :
    q.invoker.filesAfter q.machine b root t = p.invoker.filesAfter p.machine b root t := by
  rw [Invoker.filesAfter, Invoker.filesAfter, h.leavesOut_eq, h.cwd, h.configs]

/-- The other analyzers do the same. -/
theorem trial_eq (h : DifferOnlyIn a root p q) (hb : b ≠ a) (t : FileTree) :
    q.invoker.trial q.machine b root t = p.invoker.trial p.machine b root t := by
  have hcommand :
      q.invoker.command q.machine.cwd b root = p.invoker.command p.machine.cwd b root := by
    unfold Invoker.command
    rw [h.cwd, h.configs, h.program b hb]
  rw [Invoker.trial, Invoker.trial, h.leavesOut_eq, hcommand, h.successCodes b hb, h.timeout b hb,
    h.filesAfter_eq]
  split_ifs
  · rfl
  · rcases hargv : outcome (p.invoker.command p.machine.cwd b root) t with e | argv
    · rfl
    · dsimp only
      rw [Machine.trial, Machine.trial, h.launch b hb argv _ (Invoker.runs_of_command hargv)]

/-- Programs that treat the commands of all other analyzers alike. -/
theorem of_execute {execute : FileTree → Call → Except FileError Ending}
    (h : ∀ b, b ≠ a → ∀ t call, p.invoker.Runs b root call.argv →
      execute t call = p.machine.execute t call) :
    DifferOnlyIn a root p ⟨p.invoker, { p.machine with execute }⟩ where
  cwd := rfl
  configs _ := rfl
  program _ _ := rfl
  timeout _ _ := rfl
  successCodes _ _ := rfl
  launch b hb argv t hruns := by
    unfold Machine.launch
    simp only [h b hb t ⟨_, argv, _⟩ hruns]
    rfl

end DifferOnlyIn

/-- The kind of a project and the results of the other analyzers do not show what an analyzer
does. -/
theorem reviewOf_differOnlyIn (h : DifferOnlyIn a root p q) (w : World) (level : Level) :
    (q.course root w).kind = (p.course root w).kind ∧
    (a ≠ .bandit → (q.reviewOf root w level).security = (p.reviewOf root w level).security) ∧
    (a ≠ (p.course root w).kind.mainLinter →
      (q.reviewOf root w level).main = (p.reviewOf root w level).main) ∧
    (a ≠ .radon → (q.reviewOf root w level).complexity = (p.reviewOf root w level).complexity) := by
  obtain ⟨hscan, hscanned, hkind, hlint, hlinted, hmeasure, hmeasured, -⟩ := p.course_eq root w
  obtain ⟨hscan', hscanned', hkind', hlint', hlinted', hmeasure', hmeasured', -⟩ :=
    q.course_eq root w
  -- The files are the same after each run, whatever comes of it.
  have hfirst : (q.course root w).scanned.files = (p.course root w).scanned.files := by
    rw [hscanned', hscanned, h.filesAfter_eq]
  have hsame : (q.course root w).kind = (p.course root w).kind := by
    rw [hkind', hkind, hfirst, h.cwd]
  have hsecond : (q.course root w).linted.files = (p.course root w).linted.files := by
    rw [hlinted', hlinted, hfirst, hsame, h.filesAfter_eq]
  have hthird : (q.course root w).measured.files = (p.course root w).measured.files := by
    rw [hmeasured', hmeasured, hsecond, h.filesAfter_eq]
  unfold reviewOf
  dsimp only
  refine ⟨hsame, fun hne => ?_, fun hne => ?_, fun hne => ?_⟩
  · rw [hscan', hscan, hfirst, h.rootOf_eq, h.trial_eq hne.symm]
  · rw [hlint', hlint, hfirst, hsecond, hsame, h.rootOf_eq, h.trial_eq hne.symm]
  · rw [hmeasure', hmeasure, hsecond, hthird, h.rootOf_eq, h.trial_eq hne.symm]

end Pipeline

/-! ### Putting it together -/

namespace Pipeline

theorem directory_of_checkRoot {p : Pipeline} {root : Path} {t : FileTree}
    (h : p.checkRoot t root = .ok ()) :
    ∃ place, t.find p.machine.cwd true root = .ok place ∧ t.hasDirectory place = true := by
  unfold checkRoot at h
  split at h
  · simp at h
  · next place hfind =>
    split_ifs at h with hdirectory
    exact ⟨place, hfind, hdirectory⟩

/-- An analyzer that needs sources is only run where there were some before the analysis. -/
theorem holdsSource_of_leavesOut {p : Pipeline} {root : Path} {t : FileTree}
    (hroot : p.checkRoot t root = .ok ()) {a : Analyzer} (hneeds : a.needsSources = true)
    (h : Invoker.leavesOut p.machine a root t = false) : HoldsSource t p.machine.cwd root := by
  obtain ⟨place, hfind, hdirectory⟩ := directory_of_checkRoot hroot
  refine holdsSource_of_hasSources hfind hdirectory ?_
  simpa [Invoker.leavesOut, hneeds] using h

/-- Where bandit is left out, no file is written, so that the main linter is left out too. -/
theorem holdsSource_of_lint {p : Pipeline} {root : Path} {t : FileTree}
    (hroot : p.checkRoot t root = .ok ()) (kind : ProjectKind)
    (h : Invoker.leavesOut p.machine kind.mainLinter root
      (p.invoker.filesAfter p.machine .bandit root t) = false) :
    HoldsSource t p.machine.cwd root := by
  rcases hscan : Invoker.leavesOut p.machine .bandit root t with _ | _
  · exact holdsSource_of_leavesOut hroot rfl hscan
  · rw [Invoker.filesAfter, if_pos hscan] at h
    have hneeds : kind.mainLinter.needsSources = true := by cases kind <;> rfl
    exact holdsSource_of_leavesOut hroot hneeds h

/-- What a beginner is shown is what everyone is shown, less the issues that are for others. -/
theorem reviewOf_beginner (p : Pipeline) (root : Path) (w : World) (level : Level) :
    p.reviewOf root w .beginner =
      let r := p.reviewOf root w level
      { r with
        level := .beginner
        main := { r.main with issues := r.main.issues.filter fun i => !i.isAdvancedOnly } } := by
  unfold reviewOf
  dsimp only
  rw [← Report.filterFor_beginner]

end Pipeline

/-- **An analysis runs bandit, the main linter of the project and radon, in this order.** Each
result tells of its own run: it is a success exactly if there is no error, and what did not come to
an end shows no issues. The kind of the project and the other two results do not depend on what an
analyzer does, and a beginner is only spared the issues of the main linter that are for others. -/
theorem analysis_composes (p : Pipeline) (root : Path) (w : World)
    (hroot : p.checkRoot w.files root = .ok ()) :
    let c := p.course root w
    let linter := c.kind.mainLinter
    let stages : List Stage := [.security, .classify, .linter linter, .complexity]
    let codes := p.invoker.settings.successCodes
    stages.map Stage.name = ["security", "classify", "main:" ++ linter.name, "complexity"] ∧
    (∀ level, outcome (p.analyze root level) w = .ok (p.reviewOf root w level, stages) ∧
      after (p.analyze root level) w = c.measured) ∧
    (∃ scan lint measure : Option Call,
      c.measured.calls = w.calls ++ scan.toList ++ lint.toList ++ measure.toList ∧
      (∀ x ∈ scan, p.invoker.Runs .bandit root x.argv) ∧
      (∀ x ∈ lint, p.invoker.Runs linter root x.argv) ∧
      (∀ x ∈ measure, p.invoker.Runs .radon root x.argv) ∧
      (scan ≠ none ∨ lint ≠ none → HoldsSource w.files p.machine.cwd root)) ∧
    (∀ level, let r := p.reviewOf root w level
      r.level = level ∧ r.kind = c.kind ∧ r.linter = linter ∧
      r.security.Tells (codes .bandit) c.scan ∧ r.main.Tells (codes linter) c.lint ∧
      r.complexity.Tells (codes .radon) c.measure ∧
      p.reviewOf root w .beginner =
        { r with
          level := .beginner
          main := { r.main with issues := r.main.issues.filter fun i => !i.isAdvancedOnly } }) ∧
    (∀ (level : Level) (a : Analyzer) (q : Pipeline), Pipeline.DifferOnlyIn a root p q →
      ∃ r, outcome (q.analyze root level) w = .ok (r, stages) ∧ r.kind = c.kind ∧
        r.linter = linter ∧
        (a ≠ .bandit → r.security = (p.reviewOf root w level).security) ∧
        (a ≠ linter → r.main = (p.reviewOf root w level).main) ∧
        (a ≠ .radon → r.complexity = (p.reviewOf root w level).complexity)) := by
  intro c linter stages codes
  obtain ⟨hscan, hscanned, -, hlint, -, hmeasure, -, scan, lint, measure, hcalls, hstarted,
    hstarted', hstarted''⟩ := p.course_eq root w
  refine ⟨rfl, fun level => Pipeline.analyze_eq hroot level, ⟨scan, lint, measure, hcalls,
    fun x hx => (hstarted x hx).1, fun x hx => (hstarted' x hx).1, hstarted'', ?_⟩,
    fun level => ⟨rfl, Pipeline.kind_reviewOf .., Pipeline.linter_reviewOf .., ?_, ?_, ?_,
      p.reviewOf_beginner root w level⟩,
    fun level a q hq => ?_⟩
  · rintro (hsome | hsome) <;> obtain ⟨x, hx⟩ := Option.ne_none_iff_exists'.mp hsome
    · exact Pipeline.holdsSource_of_leavesOut hroot rfl (hstarted x hx).2
    · exact Pipeline.holdsSource_of_lint hroot c.kind (hscanned ▸ (hstarted' x hx).2)
  · show ((p.course root w).scan.report _).Tells _ _
    rw [hscan]
    exact p.invoker.tells_trial ..
  · show (((p.course root w).lint.report _).filterFor level).Tells _ _
    rw [hlint]
    exact (p.invoker.tells_trial ..).filterFor level
  · show ((p.course root w).measure.report _).Tells _ _
    rw [hmeasure]
    exact p.invoker.tells_trial ..
  · have hroot' : q.checkRoot w.files root = .ok () := by
      rw [← hroot, Pipeline.checkRoot, Pipeline.checkRoot, hq.cwd]
    obtain ⟨hkind, hsecurity, hmain, hcomplexity⟩ := Pipeline.reviewOf_differOnlyIn hq w level
    have hanalyze := (Pipeline.analyze_eq hroot' level).1
    rw [hkind] at hanalyze
    refine ⟨q.reviewOf root w level, hanalyze, ?_, ?_, hsecurity, hmain, hcomplexity⟩
    · rw [Pipeline.kind_reviewOf, hkind]
    · rw [Pipeline.linter_reviewOf, hkind]

/-- Bandit succeeds, radon never comes to an end, and everything else fails. -/
def mixedFortunes (_ : FileTree) (call : Call) : Except FileError Ending :=
  match call.argv.head? with
  | some "bandit" => .ok ⟨.empty, .empty, some 0, 0⟩
  | some "radon" => .ok ⟨.empty, .empty, none, 10 ^ 9⟩
  | _ => .ok ⟨.empty, "fault".toUTF8, some 99, 0⟩

/-- The same without bandit. -/
def withoutBandit (t : FileTree) (call : Call) : Except FileError Ending :=
  if call.argv.head? = some "bandit" then .error .notFound else mixedFortunes t call

/-- A pipeline for programs that do what is given. -/
def pipelineOf (execute : FileTree → Call → Except FileError Ending) : Pipeline :=
  ⟨⟨.standard, ⟨"/c"⟩, 1⟩, ⟨[], ⟨"/tmp"⟩, [], [⟨"/bin"⟩], execute⟩⟩

/-- One source, and three programs. -/
def oneSource : World :=
  ⟨⟨[(["bin"], .directory), (["bin", "bandit"], .file .empty 0o755),
      (["bin", "pylint"], .file .empty 0o755), (["bin", "radon"], .file .empty 0o755),
      (["p"], .directory), (["p", "a.py"], .file "x = 1\n".toUTF8 defaultMode)]⟩, [], 0⟩

theorem differOnlyIn_withoutBandit :
    Pipeline.DifferOnlyIn .bandit ⟨"/p"⟩ (pipelineOf mixedFortunes) (pipelineOf withoutBandit) := by
  refine Pipeline.DifferOnlyIn.of_execute fun b hb t call ⟨config, hruns⟩ => if_neg ?_
  have hhead : call.argv.head? = some (ToolsSettings.standard.program b) := by
    rw [hruns]
    cases b <;> rfl
  rw [hhead]
  cases b with
  | bandit => exact absurd rfl hb
  | ruff | pylint | radon => decide

/-- Without bandit, the same is said about pylint, and about radon, which takes too long. -/
theorem analysis_composes_missing :
    let p := pipelineOf mixedFortunes
    let q := pipelineOf withoutBandit
    p.checkRoot oneSource.files ⟨"/p"⟩ = .ok () ∧ Pipeline.DifferOnlyIn .bandit ⟨"/p"⟩ p q ∧
    ((p.course ⟨"/p"⟩ oneSource).scan.code = some 0 ∧
      (q.course ⟨"/p"⟩ oneSource).scan.error =
        some "bandit not found. Please install it first.") ∧
    ((p.course ⟨"/p"⟩ oneSource).measure.timedOut = true ∧
      (p.reviewOf ⟨"/p"⟩ oneSource .advanced).complexity.issues = []) ∧
    ∃ r, outcome (q.analyze ⟨"/p"⟩ .advanced) oneSource =
        .ok (r, [.security, .classify, .linter .pylint, .complexity]) ∧
      r.main = (p.reviewOf ⟨"/p"⟩ oneSource .advanced).main ∧
      r.complexity = (p.reviewOf ⟨"/p"⟩ oneSource .advanced).complexity := by
  intro p q
  have hroot : p.checkRoot oneSource.files ⟨"/p"⟩ = .ok () := by decide +kernel
  have hscan : (p.course ⟨"/p"⟩ oneSource).scan.code = some 0 ∧
      (q.course ⟨"/p"⟩ oneSource).scan.error =
        some "bandit not found. Please install it first." := by decide +kernel
  have htimed : (p.course ⟨"/p"⟩ oneSource).measure.timedOut = true := by decide +kernel
  have hlinter : (p.course ⟨"/p"⟩ oneSource).kind.mainLinter = .pylint := by decide +kernel
  obtain ⟨-, -, -, htells, hdiffer⟩ := analysis_composes p ⟨"/p"⟩ oneSource hroot
  obtain ⟨-, -, -, -, -, hmeasure, -⟩ := htells .advanced
  obtain ⟨r, hanalyze, -, -, -, hmain, hcomplexity⟩ :=
    hdiffer .advanced .bandit q differOnlyIn_withoutBandit
  rw [hlinter] at hanalyze hmain
  exact ⟨hroot, differOnlyIn_withoutBandit, hscan,
    ⟨htimed, hmeasure.silent (hmeasure.timedOut htimed)⟩, r, hanalyze, hmain (by decide),
    hcomplexity (by decide)⟩

end ReviewMentor

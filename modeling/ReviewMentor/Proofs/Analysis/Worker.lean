import Mathlib.Logic.Function.Iterate
import Mathlib.Logic.Relation
import ReviewMentor.Proofs.Analysis.Composition

/-!
# The worker of an analysis

An analysis with a limit has a worker of its own, which may be told at any moment that the analysis
is given up. The steps of the worker are smaller than those of the analysis: it prepares the command
of an analyzer, looks whether the analysis is given up, starts the command, and waits for its end. A
command that runs when the analysis is given up is stopped, unless it ends first. As long as nothing
is said in between, the steps of the worker add up to those of the analysis.
-/

namespace ReviewMentor

open FileTree Effect

/-! ### Commands -/

namespace Machine

variable {m : Machine} {argv : List String} {tool : String} {seconds : Nat}
  {directory? : Option Path} {call : Call} {ending : Ending} {e : FileError} {w : World}

/-- The limit of a command in milliseconds; no seconds mean any time. -/
def limitOf (seconds : Nat) : Option Nat := if seconds = 0 then none else some (seconds * 1000)

/-- What comes of a started command that nobody stops. -/
def outcomeOf (tool : String) (seconds : Nat) (ending : Ending) : Outcome :=
  if (limitOf seconds).any (· < ending.millis) then .timedOut tool seconds
  else .completed (Text.ofBytesLossy ending.stdout) (Text.ofBytesLossy ending.stderr)
    (ending.code.getD killedCode)

/-- How long a started command is waited for. -/
def spentOn (seconds : Nat) (ending : Ending) : Nat :=
  match limitOf seconds with
  | some limit => min limit ending.millis
  | none => ending.millis

theorem trial_empty (h : argv.isEmpty = true) (t : FileTree) :
    m.trial argv tool seconds directory? t = .failed "Empty command" := by
  rw [trial, if_pos h]

theorem trial_error {t : FileTree} (h : argv.isEmpty = false)
    (hlaunch : m.launch argv directory? t = .error e) :
    m.trial argv tool seconds directory? t = .failed (startFailure tool e) := by
  rw [trial, h, if_neg Bool.false_ne_true, hlaunch]

theorem trial_ok {t : FileTree} (h : argv.isEmpty = false)
    (hlaunch : m.launch argv directory? t = .ok (call, ending)) :
    m.trial argv tool seconds directory? t = outcomeOf tool seconds ending := by
  rw [trial, h, if_neg Bool.false_ne_true, hlaunch]
  rfl

theorem runTool_empty (h : argv.isEmpty = true) (c : Bool) :
    StateT.run (m.runTool argv tool seconds directory? c) w = (.failed "Empty command", w) := by
  rw [runTool, if_pos h]
  rfl

theorem runTool_cancelled (h : argv.isEmpty = false) :
    StateT.run (m.runTool argv tool seconds directory? true) w = (.cancelled tool, w) := by
  rw [runTool, h, if_neg Bool.false_ne_true, if_pos rfl]
  rfl

theorem runTool_error (h : argv.isEmpty = false)
    (hlaunch : m.launch argv directory? w.files = .error e) :
    StateT.run (m.runTool argv tool seconds directory? false) w =
      (.failed (startFailure tool e), w) := by
  rw [runTool, h, if_neg Bool.false_ne_true, if_neg Bool.false_ne_true]
  dsimp only
  rw [StateT.run_bind, start_error hlaunch]
  rfl

theorem runTool_ok (h : argv.isEmpty = false)
    (hlaunch : m.launch argv directory? w.files = .ok (call, ending)) :
    StateT.run (m.runTool argv tool seconds directory? false) w =
      (outcomeOf tool seconds ending,
        ⟨w.files, w.calls ++ [call], w.clock + spentOn seconds ending⟩) := by
  have hstart : StateT.run (m.start argv directory? (limitOf seconds) :
      StateM World (Except FileError Ending)) w =
        (.ok ending, ⟨w.files, w.calls ++ [call], w.clock + spentOn seconds ending⟩) := by
    rw [start_eq, Work.run_of, hlaunch]
    rfl
  rw [runTool, h, if_neg Bool.false_ne_true, if_neg Bool.false_ne_true]
  show StateT.run (m.start argv directory? (limitOf seconds) >>= _) w = _
  rw [StateT.run_bind, hstart]
  show StateT.run (if (limitOf seconds).any (· < ending.millis) then _ else _) _ = _
  unfold outcomeOf
  split_ifs <;> rfl

end Machine

/-! ### Steps -/

/-- The analyzer that a phase runs. -/
def Phase.analyzer? : Phase → Option Analyzer
  | .scan => some .bandit
  | .lint kind => some kind.mainLinter
  | .measure => some .radon
  | _ => none

/-- How far the run of an analyzer has come. -/
inductive Turn where
  /-- No analyzer is being run. -/
  | idle
  /-- The command is known, and what configures the analyzer is written. -/
  | prepared (argv : List String)
  /-- The analysis was not given up when the worker looked. -/
  | cleared (argv : List String)
  /-- The command is started; this is what comes of it if nobody stops it. -/
  | running (ending : Ending)

/-- A worker. -/
structure Worker where
  analysis : Analysis
  turn : Turn
  world : World
  /-- Whether it was told that the analysis is given up. -/
  givenUp : Bool

namespace Worker

variable (p : Pipeline) (root : Path) (level : Level)

/-- A worker that has not begun. -/
def start (w : World) : Worker := ⟨.initial, .idle, w, false⟩

/-- The run of the analyzer is over, and the analysis goes on with its report. -/
def report (r : ToolRun) (x : Worker) : Worker :=
  let r := r.report (Invoker.rootOf p.machine x.world.files root)
  { x with
    analysis := Analysis.step (M := Id) (fun _ => r) .unknown level x.givenUp x.analysis
    turn := .idle }

/-- The command of the analyzer came to its end. -/
def conclude (a : Analyzer) (o : Outcome) (x : Worker) : Worker :=
  x.report p root level (.ofOutcome a o (p.invoker.settings.successCodes a))

/-- The worker when some milliseconds have passed. -/
def wait (millis : Nat) (x : Worker) : Worker :=
  { x with world := { x.world with clock := x.world.clock + millis } }

/-- The first step of running an analyzer: it is left out, or its command is prepared. -/
def prepare (a : Analyzer) (x : Worker) : Worker :=
  if Invoker.leavesOut p.machine a root x.world.files then x.report p root level (.left a)
  else
    let (files, command) := (p.invoker.command p.machine.cwd a root).run x.world.files
    let x := { x with world := { x.world with files } }
    match command with
    | .error e =>
      x.report p root level (.failed a ("Failed to write " ++ a.name ++ " config: " ++ e.message))
    | .ok argv => { x with turn := .prepared argv }

/-- A step of running an analyzer. -/
def run (a : Analyzer) (x : Worker) : Worker :=
  match x.turn with
  | .idle => x.prepare p root level a
  | .prepared argv =>
    if argv.isEmpty then x.conclude p root level a (.failed "Empty command")
    else if x.givenUp then x.conclude p root level a (.cancelled a.name)
    else { x with turn := .cleared argv }
  | .cleared argv =>
    match p.machine.launch argv (some root) x.world.files with
    | .error e => x.conclude p root level a (.failed (startFailure a.name e))
    | .ok (call, ending) =>
      { x with turn := .running ending, world := { x.world with calls := x.world.calls ++ [call] } }
  | .running ending =>
    let seconds := p.invoker.settings.timeout a
    (x.wait (Machine.spentOn seconds ending)).conclude p root level a
      (Machine.outcomeOf a.name seconds ending)

/-- A whole step of the analysis. -/
def step (x : Worker) : Worker :=
  let (analysis, world) := StateT.run (p.step root level x.givenUp x.analysis) x.world
  { x with analysis, world }

/-- A step of the worker, if it is left alone. -/
def next (x : Worker) : Worker :=
  match x.analysis.phase.analyzer? with
  | some a => x.run p root level a
  | none => x.step p root level

/-- What may happen to a worker. -/
inductive Moves : Worker → Worker → Prop where
  | work (x : Worker) : Moves x (x.next p root level)
  | giveUp (x : Worker) : Moves x { x with givenUp := true }
  /-- The command that is running is stopped, some milliseconds after its start. -/
  | stop {x : Worker} {a : Analyzer} {ending : Ending} (millis : Nat)
      (hphase : x.analysis.phase.analyzer? = some a) (hturn : x.turn = .running ending)
      (hgivenUp : x.givenUp = true) :
      Moves x ((x.wait millis).conclude p root level a (.cancelled a.name))

/-- What may come of a worker. -/
def Reaches : Worker → Worker → Prop := Relation.ReflTransGen (Moves p root level)

variable {p root level} {x y : Worker} {a : Analyzer} {r : ToolRun} {w : World} {s : Analysis}

/-! ### Steps of the analysis -/

theorem run_step_of_analyzer (ha : s.phase.analyzer? = some a) (c : Bool) (w : World) :
    StateT.run (p.step root level c s) w =
      let (r, w') := StateT.run (p.invoker.analyze p.machine a root root c) w
      (Analysis.step (M := Id) (fun _ => r) .unknown level c s, w') := by
  unfold Pipeline.step Analysis.step
  cases hs : s.phase <;> simp only [hs, Phase.analyzer?, Option.some.injEq, reduceCtorEq] at ha <;>
    subst ha <;> rfl

theorem step_of_run (ha : x.analysis.phase.analyzer? = some a) (hidle : x.turn = .idle)
    (h : StateT.run (p.invoker.run p.machine a root root x.givenUp) x.world = (r, w)) :
    x.step p root level = { x with world := w }.report p root level r := by
  unfold step report
  rw [run_step_of_analyzer ha, Pipeline.run_analyze h]
  simp only [← hidle]

theorem next_of_analyzer (p : Pipeline) (root : Path) (level : Level)
    (ha : x.analysis.phase.analyzer? = some a) :
    x.next p root level = x.run p root level a := by
  rw [next, ha]

theorem next_of_none (ha : x.analysis.phase.analyzer? = none) :
    x.next p root level = x.step p root level := by
  rw [next, ha]

/-- A worker whose analyzer has a command runs it, and goes on with its report. -/
theorem exists_iterate_prepared (p : Pipeline) (root : Path) (level : Level)
    {argv : List String} (ha : x.analysis.phase.analyzer? = some a)
    (hturn : x.turn = .prepared argv) :
    ∃ n o w, StateT.run (p.machine.runTool argv a.name (p.invoker.settings.timeout a) (some root)
        x.givenUp) x.world = (o, w) ∧
      (next p root level)^[n] x = { x with world := w }.conclude p root level a o := by
  obtain ⟨analysis, turn, world, givenUp⟩ := x
  obtain rfl : turn = .prepared argv := hturn
  have hfirst := next_of_analyzer p root level ha
  rw [run] at hfirst
  dsimp only at hfirst ha ⊢
  rcases hempty : argv.isEmpty with _ | _
  · rw [hempty, if_neg Bool.false_ne_true] at hfirst
    rcases givenUp with _ | _
    · have hsecond : (next p root level)^[2] ⟨analysis, .prepared argv, world, false⟩ =
          run p root level a ⟨analysis, .cleared argv, world, false⟩ := by
        rw [Function.iterate_succ_apply, hfirst]
        exact next_of_analyzer p root level ha
      rw [run] at hsecond
      dsimp only at hsecond
      rcases hlaunch : p.machine.launch argv (some root) world.files with e | ⟨call, ending⟩ <;>
        rw [hlaunch] at hsecond
      · exact ⟨2, _, _, Machine.runTool_error hempty hlaunch, hsecond⟩
      · refine ⟨3, _, _, Machine.runTool_ok hempty hlaunch, ?_⟩
        rw [Function.iterate_succ_apply', hsecond]
        exact (next_of_analyzer p root level ha).trans rfl
    · exact ⟨1, _, _, Machine.runTool_cancelled hempty, hfirst⟩
  · rw [hempty, if_pos rfl] at hfirst
    exact ⟨1, _, _, Machine.runTool_empty hempty _, hfirst⟩

/-- Left alone, an idle worker takes a step of the analysis. -/
theorem exists_iterate_next (p : Pipeline) (root : Path) (level : Level)
    (hidle : x.turn = .idle) :
    ∃ n, (next p root level)^[n] x = x.step p root level := by
  rcases ha : x.analysis.phase.analyzer? with _ | a
  · exact ⟨1, next_of_none ha⟩
  have hfirst : x.next p root level = x.prepare p root level a := by
    rw [next_of_analyzer p root level ha, run, hidle]
  unfold prepare at hfirst
  rcases hout : Invoker.leavesOut p.machine a root x.world.files with _ | _
  · rw [hout, if_neg Bool.false_ne_true, Disk.run_eq, Invoker.after_command] at hfirst
    rcases hcommand : outcome (p.invoker.command p.machine.cwd a root) x.world.files with e | argv
    · refine ⟨1, ?_⟩
      rw [step_of_run ha hidle (Invoker.run_unprepared hout hcommand)]
      simp only [hcommand] at hfirst
      exact hfirst
    · simp only [hcommand] at hfirst
      obtain ⟨n, o, w, hrun, hdone⟩ := exists_iterate_prepared p root level
        (x := x.next p root level) (a := a) (by rw [hfirst]; exact ha) (by rw [hfirst])
      refine ⟨n + 1, ?_⟩
      rw [hfirst] at hrun hdone
      rw [Function.iterate_succ_apply, hfirst, hdone,
        step_of_run ha hidle (Invoker.run_prepared hout hcommand hrun)]
      rfl
  · refine ⟨1, ?_⟩
    rw [hout, if_pos rfl] at hfirst
    rw [step_of_run ha hidle (Invoker.run_left hout)]
    exact hfirst

/-! ### Whole runs -/

theorem run_advance_succ {next : Analysis → StateM World Analysis} {stop : StateM World Bool}
    (hstop : (StateT.run stop w).2 = w) (steps : Nat) (s : Analysis) :
    StateT.run (Analysis.advance next stop (steps + 1) s) w =
      if (StateT.run stop w).1 || s.phase = .done then (s, w)
      else StateT.run (Analysis.advance next stop steps (StateT.run (next s) w).1)
        (StateT.run (next s) w).2 := by
  rw [Analysis.advance, StateT.run_bind]
  rcases hlook : StateT.run stop w with ⟨stopped, w'⟩
  obtain rfl : w' = w := by rw [← hstop, hlook]
  show StateT.run (if stopped || s.phase = .done then _ else _) _ = _
  split_ifs <;> rfl

/-- Left alone and never told to give up, a worker goes as far as the analysis does, wherever it has
to stop. -/
theorem exists_iterate_advance (p : Pipeline) (root : Path) (level : Level)
    (stop : StateM World Bool) (hstop : ∀ w, (StateT.run stop w).2 = w) (steps : Nat)
    (hidle : x.turn = .idle) (hup : x.givenUp = false) :
    ∃ n, (next p root level)^[n] x =
      let (analysis, world) :=
        StateT.run (Analysis.advance (p.step root level false) stop steps x.analysis) x.world
      { x with analysis, world } := by
  induction steps generalizing x with
  | zero => exact ⟨0, rfl⟩
  | succ steps ih =>
    rw [run_advance_succ (hstop x.world)]
    split_ifs
    · exact ⟨0, rfl⟩
    · obtain ⟨n, hn⟩ := exists_iterate_next p root level hidle
      obtain ⟨k, hk⟩ := ih (x := x.step p root level) hidle hup
      refine ⟨k + n, ?_⟩
      rw [Function.iterate_add_apply, hn, hk, step, hup]
      rfl

/-- Left alone, a worker finishes the analysis. -/
theorem exists_iterate_start (p : Pipeline) (root : Path) (level : Level) (w : World) :
    ∃ n, (next p root level)^[n] (start w) =
      ⟨p.finished root w level, .idle, (p.course root w).measured, false⟩ := by
  obtain ⟨n, hn⟩ := exists_iterate_advance p root level (pure false) (fun _ => rfl)
    Analysis.stepCount (x := start w) rfl rfl
  refine ⟨n, ?_⟩
  rw [hn, show (start w).analysis = .initial from rfl, show (start w).world = w from rfl,
    p.run_advance root level w]
  rfl

@[simp] theorem givenUp_conclude {o : Outcome} :
    (x.conclude p root level a o).givenUp = x.givenUp := rfl

@[simp] theorem givenUp_prepare : (x.prepare p root level a).givenUp = x.givenUp := by
  unfold prepare
  rw [Disk.run_eq]
  split_ifs
  · rfl
  · dsimp only
    split <;> rfl

theorem givenUp_next : (x.next p root level).givenUp = x.givenUp := by
  unfold next run
  split
  · split
    · exact givenUp_prepare
    · split_ifs <;> rfl
    · split <;> rfl
    · rfl
  · rfl

theorem Moves.givenUp (h : Moves p root level x y) (hup : x.givenUp = true) : y.givenUp = true := by
  cases h with
  | work => rw [givenUp_next, hup]
  | giveUp => rfl
  | stop => exact hup

theorem next_done (hdone : x.analysis.phase = .done) : x.next p root level = x := by
  obtain ⟨⟨phase, recorded, stages⟩, turn, world, givenUp⟩ := x
  obtain rfl : phase = .done := hdone
  rfl

/-- A worker that was never told to give up was left alone. -/
theorem Reaches.exists_iterate (h : Reaches p root level x y) (hup : y.givenUp = false) :
    ∃ n, y = (next p root level)^[n] x := by
  induction h with
  | refl => exact ⟨0, rfl⟩
  | @tail y z _ hmove ih =>
    have hbefore : y.givenUp = false := by
      rcases hy : y.givenUp with _ | _
      · rfl
      · exact absurd (hmove.givenUp hy) (by simp [hup])
    obtain ⟨n, rfl⟩ := ih hbefore
    cases hmove with
    | work => exact ⟨n + 1, (Function.iterate_succ_apply' ..).symm⟩
    | giveUp => exact absurd hup (by simp)
    | stop _ _ _ hgivenUp => exact absurd hbefore (by simp [hgivenUp])

/-- If it is done, it has finished the analysis. -/
theorem Reaches.eq_finished {w : World} (h : Reaches p root level (start w) x)
    (hup : x.givenUp = false) (hdone : x.analysis.phase = .done) :
    x = ⟨p.finished root w level, .idle, (p.course root w).measured, false⟩ := by
  obtain ⟨n, rfl⟩ := h.exists_iterate hup
  obtain ⟨k, hk⟩ := exists_iterate_start p root level w
  have hfixed {y : Worker} (hy : y.analysis.phase = .done) (i : Nat) :
      (next p root level)^[i] y = y := Function.iterate_fixed (next_done hy) i
  rw [← hk]
  rcases Nat.le_total n k with hle | hle <;> obtain ⟨i, rfl⟩ := Nat.exists_eq_add_of_le' hle
  · rw [Function.iterate_add_apply, hfixed hdone]
  · rw [Function.iterate_add_apply, hk, hfixed rfl]

end Worker

end ReviewMentor

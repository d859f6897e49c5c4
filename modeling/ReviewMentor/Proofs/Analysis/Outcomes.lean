import ReviewMentor.Proofs.Analysis.Running
import ReviewMentor.Proofs.Files.Sweeping

/-!
# What comes of running one analyzer

Running an analyzer on a project can be split in two: what comes of it, which the files decide, and
what it leaves behind, which is a configuration file and at most one started command. Whether the
report is a success and whether it has findings can be read off the run.
-/

namespace ReviewMentor

open FileTree Effect

variable {m : Machine} {argv : List String} {tool : String} {seconds : Nat}
  {directory? : Option Path} {t : FileTree} {w : World} {a : Analyzer}

namespace Work

variable {ε α : Type}

theorem run_of (f : World → World × Except ε α) (w : World) :
    StateT.run (Work.of f : StateM World (Except ε α)) w = ((f w).2, (f w).1) := rfl

theorem outcome_ofState (x : StateM World α) (w : World) :
    outcome (Work.ofState x : Work ε α) w = .ok (StateT.run x w).1 := rfl

theorem after_ofState (x : StateM World α) (w : World) :
    after (Work.ofState x : Work ε α) w = (StateT.run x w).2 := rfl

theorem run_get_bind (f : World → StateM World α) (w : World) :
    StateT.run (get >>= f) w = StateT.run (f w) w := rfl

theorem run_set_bind (w' : World) (f : PUnit → StateM World α) (w : World) :
    StateT.run (set w' >>= f) w = StateT.run (f ⟨⟩) w' := rfl

end Work

/-! ### Commands -/

namespace Machine

theorem argv_of_launch {call : Call} {ending : Ending}
    (h : m.launch argv directory? t = .ok (call, ending)) : call.argv = argv := by
  unfold launch at h
  split at h
  · simp [bind, Except.bind] at h
  · obtain ⟨directory, -, h⟩ := ok_of_bind h
    obtain ⟨program, -, h⟩ := ok_of_bind h
    obtain ⟨ending', -, h⟩ := ok_of_bind h
    obtain ⟨rfl, -⟩ := Prod.mk.inj (Except.ok.inj h)
    rfl

/-- What comes of a command for a tool, as the files are. -/
def trial (m : Machine) (argv : List String) (tool : String) (seconds : Nat)
    (directory? : Option Path) (t : FileTree) : Outcome :=
  if argv.isEmpty then .failed "Empty command"
  else match m.launch argv directory? t with
    | .error e => .failed (startFailure tool e)
    | .ok (_, ending) =>
      if (if seconds = 0 then none else some (seconds * 1000)).any (· < ending.millis) then
        .timedOut tool seconds
      else .completed (Text.ofBytesLossy ending.stdout) (Text.ofBytesLossy ending.stderr)
        (ending.code.getD killedCode)

theorem start_error {limit? : Option Nat} {e : FileError}
    (h : m.launch argv directory? w.files = .error e) :
    StateT.run (m.start argv directory? limit? : StateM World (Except FileError Ending)) w =
      (.error e, w) := by
  rw [start_eq, Work.run_of, h]

theorem start_ok (limit? : Option Nat) {call : Call} {ending : Ending}
    (h : m.launch argv directory? w.files = .ok (call, ending)) :
    ∃ clock,
      StateT.run (m.start argv directory? limit? : StateM World (Except FileError Ending)) w =
        (.ok ending, ⟨w.files, w.calls ++ [call], clock⟩) := by
  rw [start_eq, Work.run_of, h]
  exact ⟨_, rfl⟩

/-- Running a command for a tool shows what comes of it, and changes no files. -/
theorem runTool_eq (m : Machine) (argv : List String) (tool : String) (seconds : Nat)
    (directory? : Option Path) (w : World) :
    ∃ (started : Option Call) (clock : Nat), (∀ c ∈ started, c.argv = argv) ∧
      StateT.run (m.runTool argv tool seconds directory? false) w =
        (m.trial argv tool seconds directory? w.files,
          ⟨w.files, w.calls ++ started.toList, clock⟩) := by
  unfold runTool trial
  by_cases hempty : argv.isEmpty = true
  · refine ⟨none, w.clock, by simp, ?_⟩
    rw [if_pos hempty, if_pos hempty, Option.toList_none, List.append_nil]
    rfl
  rw [if_neg hempty, if_neg hempty, if_neg Bool.false_ne_true]
  dsimp only
  generalize (if seconds = 0 then none else some (seconds * 1000)) = limit?
  rcases hlaunch : m.launch argv directory? w.files with e | ⟨call, ending⟩
  · refine ⟨none, w.clock, by simp, ?_⟩
    rw [StateT.run_bind, start_error hlaunch, Option.toList_none, List.append_nil]
    rfl
  · obtain ⟨clock, hstart⟩ := start_ok limit? hlaunch
    refine ⟨some call, clock, fun c hc => ?_, ?_⟩
    · obtain rfl : call = c := by simpa using hc
      exact argv_of_launch hlaunch
    · rw [StateT.run_bind, hstart]
      show StateT.run (if limit?.any (· < ending.millis) then _ else _) _ = _
      by_cases hlate : limit?.any (· < ending.millis) = true
      · rw [if_pos hlate]
        simp only [if_pos hlate]
        rfl
      · rw [if_neg hlate]
        simp only [if_neg hlate]
        rfl

end Machine

/-! ### Runs of an analyzer -/

namespace Invoker

variable {v : Invoker} {root : Path}

/-- Whether an analyzer is left out of a project. -/
def leavesOut (m : Machine) (a : Analyzer) (root : Path) (t : FileTree) : Bool :=
  a.needsSources && !t.hasSources m.cwd root

/-- The files when an analyzer has been run on a project: it may have been given a configuration. -/
def filesAfter (v : Invoker) (m : Machine) (a : Analyzer) (root : Path) (t : FileTree) : FileTree :=
  if leavesOut m a root t then t else after (v.ensureConfig m.cwd a) t

/-- What comes of running an analyzer on a project, as the files are. -/
def trial (v : Invoker) (m : Machine) (a : Analyzer) (root : Path) (t : FileTree) : ToolRun :=
  if leavesOut m a root t then .left a
  else match outcome (v.command m.cwd a root) t with
    | .error e => .failed a ("Failed to write " ++ a.name ++ " config: " ++ e.message)
    | .ok argv => .ofOutcome a
      (m.trial argv a.name (v.settings.timeout a) (some root) (v.filesAfter m a root t))
      (v.settings.successCodes a)

/-- A command that runs an analyzer on a project. -/
def Runs (v : Invoker) (a : Analyzer) (root : Path) (argv : List String) : Prop :=
  ∃ config, argv = a.command (v.settings.program a) config root.text

theorem runs_of_command {place : Place} (h : outcome (v.command place a root) t = .ok argv) :
    v.Runs a root argv := by
  obtain ⟨config?, -, h⟩ := bind_ok h
  exact ⟨_, (Except.ok.inj h).symm⟩

theorem after_command (place : Place) (a : Analyzer) (root : Path) (t : FileTree) :
    after (v.command place a root) t = after (v.ensureConfig place a) t := by
  unfold command
  rw [after_bind]
  split <;> rfl

theorem run_left {c : Bool} (h : leavesOut m a root w.files = true) :
    StateT.run (v.run m a root root c) w = (.left a, w) := by
  unfold leavesOut at h
  unfold run
  rw [Work.run_get_bind, if_pos h]
  rfl

theorem run_unprepared {c : Bool} {e : FileError} (h : leavesOut m a root w.files = false)
    (hcommand : outcome (v.command m.cwd a root) w.files = .error e) :
    StateT.run (v.run m a root root c) w =
      (.failed a ("Failed to write " ++ a.name ++ " config: " ++ e.message),
        { w with files := after (v.ensureConfig m.cwd a) w.files }) := by
  unfold leavesOut at h
  unfold run
  rw [Work.run_get_bind, h, if_neg Bool.false_ne_true, Disk.run_eq, hcommand, after_command]
  rfl

theorem run_prepared {c : Bool} (h : leavesOut m a root w.files = false)
    (hcommand : outcome (v.command m.cwd a root) w.files = .ok argv) {o : Outcome} {w' : World}
    (hrun : StateT.run (m.runTool argv a.name (v.settings.timeout a) (some root) c)
        { w with files := after (v.ensureConfig m.cwd a) w.files } = (o, w')) :
    StateT.run (v.run m a root root c) w =
      (.ofOutcome a o (v.settings.successCodes a), w') := by
  unfold leavesOut at h
  unfold run
  rw [Work.run_get_bind, h, if_neg Bool.false_ne_true, Disk.run_eq, hcommand, after_command]
  dsimp only
  rw [Work.run_set_bind, StateT.run_bind, hrun]
  rfl

/-- Running an analyzer shows what comes of it, and starts one command at most. -/
theorem run_eq (v : Invoker) (m : Machine) (a : Analyzer) (root : Path) (w : World) :
    ∃ (w' : World) (started : Option Call),
      StateT.run (v.run m a root root false) w = (v.trial m a root w.files, w') ∧
      w'.files = v.filesAfter m a root w.files ∧ w'.calls = w.calls ++ started.toList ∧
      ∀ c ∈ started, v.Runs a root c.argv ∧ leavesOut m a root w.files = false := by
  unfold trial filesAfter
  rcases hout : leavesOut m a root w.files with _ | _
  · rcases hcommand : outcome (v.command m.cwd a root) w.files with e | argv
    · exact ⟨_, none, run_unprepared hout hcommand, rfl, (List.append_nil _).symm, by simp⟩
    · obtain ⟨started, clock, hargv, hrun⟩ := m.runTool_eq argv a.name (v.settings.timeout a)
        (some root) { w with files := after (v.ensureConfig m.cwd a) w.files }
      exact ⟨_, started, run_prepared hout hcommand hrun, rfl, rfl,
        fun c hc => ⟨hargv c hc ▸ runs_of_command hcommand, rfl⟩⟩
  · exact ⟨w, none, run_left hout, rfl, (List.append_nil _).symm, by simp⟩

end Invoker

/-! ### Reports -/

/-- What a report says about the run that it tells of, given the exit codes that mean a completed
run. -/
structure Report.Tells (r : Report) (codes : List Int) (run : ToolRun) : Prop where
  success : r.success = true ↔ r.error = none
  completed : r.success = true ↔ run.skipped = true ∨ ∃ code ∈ codes, run.code = some code
  silent : run.code = none → r.issues = []
  timedOut : run.timedOut = true → run.code = none

namespace ToolRun

variable {root : Root} {run : ToolRun} {codes : List Int}

theorem normalize_empty (a : Analyzer) (root : Root) : a.normalize "" root = [] := rfl

theorem tells_left (a : Analyzer) : ((left a).report root).Tells codes (left a) :=
  ⟨by simp [left, report], by simp [left, report], fun _ => normalize_empty a root,
    by simp [left]⟩

theorem tells_failed (a : Analyzer) (error : String) :
    ((failed a error).report root).Tells codes (failed a error) :=
  ⟨by simp [failed, report], by simp [failed, report], fun _ => normalize_empty a root,
    by simp [failed]⟩

theorem tells_ofOutcome (a : Analyzer) (o : Outcome) :
    ((ofOutcome a o codes).report root).Tells codes (ofOutcome a o codes) := by
  cases o with
  | completed stdout stderr code =>
    refine ⟨?_, ?_, by simp [ofOutcome, Outcome.code?], by simp [ofOutcome, Outcome.isTimedOut]⟩
    · by_cases hcode : code ∈ codes <;>
        simp [ofOutcome, report, Outcome.code?, Outcome.error?, hcode]
    · simp [ofOutcome, report, Outcome.code?]
  | failed message | timedOut tool seconds | cancelled tool =>
    exact ⟨by simp [ofOutcome, report, Outcome.code?, Outcome.error?],
      by simp [ofOutcome, report, Outcome.code?], fun _ => normalize_empty a root,
      fun _ => rfl⟩

end ToolRun

theorem Report.Tells.filterFor {r : Report} {codes : List Int} {run : ToolRun}
    (h : r.Tells codes run) (level : Level) : (r.filterFor level).Tells codes run := by
  unfold Report.filterFor
  split_ifs
  · exact ⟨h.success, h.completed, fun hcode => by simp [h.silent hcode], h.timedOut⟩
  · exact h

theorem Report.filterFor_beginner (r : Report) (level : Level) :
    r.filterFor .beginner = { r.filterFor level with
      issues := (r.filterFor level).issues.filter fun i => !i.isAdvancedOnly } := by
  by_cases h : level = .beginner <;> simp [Report.filterFor, h]

theorem Invoker.tells_trial (v : Invoker) (m : Machine) (a : Analyzer) (root : Path) (known : Root)
    (t : FileTree) : ((v.trial m a root t).report known).Tells (v.settings.successCodes a)
      (v.trial m a root t) := by
  unfold trial
  split_ifs
  · exact ToolRun.tells_left a
  · split
    · exact ToolRun.tells_failed a _
    · exact ToolRun.tells_ofOutcome a _

/-! ### Sources -/

theorem Text.cut_append_mark {mark : Char} {before after : List Char} (h : mark ∉ after) :
    cut mark (String.ofList (before ++ mark :: after)) =
      cut mark (String.ofList before) ++ [String.ofList after] := by
  simp [cut, cutAt_append_mark, cutAt_of_not_mem h]

theorem Path.stem_of_nameExtension? {name extension : String}
    (h : Path.nameExtension? name = some extension) :
    ∃ stem, stem ≠ "" ∧ name = stem ++ "." ++ extension := by
  unfold Path.nameExtension? at h
  by_cases hdot : '.' ∈ name.toList
  · -- The last dot is the first one from behind.
    obtain ⟨after, before, hsplit, hafter⟩ :=
      List.eq_append_cons_of_mem (List.mem_reverse.mpr hdot)
    obtain rfl : name = String.ofList (before.reverse ++ '.' :: after.reverse) := by
      rw [← String.toList_inj, ← List.reverse_reverse name.toList, hsplit]
      simp
    rw [Text.cut_append_mark (by simpa using hafter)] at h
    dsimp only at h
    rw [List.dropLast_concat, List.getLast?_concat] at h
    refine ⟨String.ofList before.reverse, fun hempty => ?_, ?_⟩
    · rw [hempty] at h
      simp [Text.cut, Text.cutAt] at h
    · split at h
      · simp at h
      · simp at h
      · obtain rfl := Option.some.inj h
        rw [← String.toList_inj]
        simp
  · rw [Text.cut_of_not_mem hdot] at h
    simp at h

/-- A file with a name that ends in `.py` lies somewhere in a project. -/
def HoldsSource (t : FileTree) (start : Place) (root : Path) : Prop :=
  ∃ place names content mode stem, t.find start true root = .ok place ∧
    (place ++ names, Entry.file content mode) ∈ t.entries ∧ stem ≠ "" ∧
    names.getLast? = some (stem ++ "." ++ "py")

theorem holdsSource_of_hasSources {t : FileTree} {start place : Place} {root : Path}
    (hfind : t.find start true root = .ok place) (hdirectory : t.hasDirectory place = true)
    (h : t.hasSources start root = true) : HoldsSource t start root := by
  have hlookup : t.lookup? place = some .directory := by
    unfold hasDirectory at hdirectory
    split at hdirectory
    · assumption
    · simp at hdirectory
  unfold hasSources at h
  rw [hfind] at h
  dsimp only at h
  rw [hlookup] at h
  obtain ⟨names, hmem, hext⟩ := List.any_eq_true.mp h
  obtain ⟨name, hname, hpy⟩ : ∃ name, names.getLast? = some name ∧
      Path.nameExtension? name = some "py" := by
    simpa [Option.bind_eq_some_iff] using hext
  obtain ⟨stem, hstem, rfl⟩ := Path.stem_of_nameExtension? hpy
  obtain ⟨content, hcontent⟩ := (of_mem_sweepFrom hmem).2.1
  obtain ⟨mode, hfile⟩ := contents_eq_some.mp hcontent
  have hne : names ≠ [] := by
    rintro rfl
    simp at hname
  exact ⟨place, names, content, mode, stem, hfind, mem_of_lookup? (by simp [hne]) hfile, hstem,
    hname⟩

end ReviewMentor

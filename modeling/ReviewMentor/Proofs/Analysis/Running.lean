import ReviewMentor.Proofs.Sessions.Beside

/-!
# Analyzers at work

Running analyzers for a session writes the files that configure them and starts commands in the
directory of the session, on paths within it. All else that is looked at while they run is where
things stand.
-/

namespace ReviewMentor

open FileTree Effect

variable {looks : Prop} {l : Pipeline} {home d place : Place} {target q : Path} {n : Nat}
  {s : SessionStore}
  {t u : FileTree} {w w' : World} {a : Analyzer}

namespace Work

variable {ε α : Type}

theorem after_of (f : World → World × Except ε α) (w : World) : after (Work.of f) w = (f w).1 := rfl

theorem outcome_of (f : World → World × Except ε α) (w : World) :
    outcome (Work.of f) w = (f w).2 := rfl

/-- Work that cannot fail, as work that could. -/
theorem agree_ofState {A R : World → World → Prop} {v v' : StateM World α}
    (h : Agree A R w w' v v') :
    Agree A R w w' (ExceptT.run (Work.ofState v : Work ε α)) (ExceptT.run (Work.ofState v')) :=
  .of_outcome (congrArg Except.ok h.value) h.alike h.moves

end Work

/-! ### Commands -/

/-- A command that was started in a directory, and whose last word is a path within it. -/
structure Started (target : Path) (d : Place) (c : Call) : Prop where
  directory : c.directory = d
  onPath : ∃ q, Within target q ∧ c.argv.getLast? = some q.text

namespace Machine

variable {m : Machine} {argv : List String} {directory? : Option Path} {limit? : Option Nat}

theorem executable_seenFrom : executable (t.seenFrom d) place q = executable t place q := by
  unfold executable
  rw [find_seenFrom]
  rcases t.find place true q with e | other
  · rfl
  simp only [bind, Except.bind, lookup?_seenFrom]
  rcases t.lookup? other with _ | (_ | ⟨content, mode⟩ | s)
  · rfl
  · simp
  · obtain ⟨seen, hseen⟩ := exists_glimpse_file d other content mode
    simp [hseen]
  · simp

theorem search_seenFrom {name : String} {refused : FileError} {paths : List Path} :
    search (t.seenFrom d) place name refused paths = search t place name refused paths := by
  induction paths generalizing refused with
  | nil => rfl
  | cons p rest ih =>
    unfold search
    rw [executable_seenFrom]
    rcases executable t place (p.child name) with e | found
    · cases e <;> exact ih
    · rfl

theorem resolve_seenFrom {program : String} :
    m.resolve (t.seenFrom d) place program = m.resolve t place program := by
  simp only [resolve, executable_seenFrom, search_seenFrom]

theorem directoryOf_seenFrom :
    m.directoryOf (t.seenFrom d) directory? = m.directoryOf t directory? := by
  simp only [directoryOf, find_seenFrom, hasDirectory_seenFrom]

/-- What is started, and what comes of it. -/
def launch (m : Machine) (argv : List String) (directory? : Option Path) (t : FileTree) :
    Except FileError (Call × Ending) := do
  if !(argv ++ (directory?.map Path.text).toList).all isPassable then .error .badCommand
  let directory ← m.directoryOf t directory?
  let call : Call := ⟨← m.resolve t directory (argv.headD ""), argv, directory⟩
  pure (call, ← m.execute t call)

theorem start_eq : m.start argv directory? limit? = Work.of fun world =>
    match m.launch argv directory? world.files with
    | .error e => (world, .error e)
    | .ok (call, ending) =>
      ({ world with calls := world.calls ++ [call], clock := world.clock +
        (match limit? with
          | some limit => min limit ending.millis
          | none => ending.millis) }, .ok ending) := rfl

theorem eq_of_directoryOf (hlies : LiesAt t m.cwd target d)
    (h : m.directoryOf t (some target) = .ok place) : place = d := by
  obtain ⟨found, hfind, h⟩ := ok_of_bind h
  split at h
  · obtain rfl := Except.ok.inj h
    exact (leads_of_find hfind).unique hlies.leads
  · exact absurd h (by simp)

/-- Commands are started in the directory that the path leads to. -/
theorem of_launch {call : Call} {ending : Ending} (hlies : LiesAt t m.cwd target d)
    (h : m.launch argv (some target) t = .ok (call, ending)) :
    call.directory = d ∧ call.argv = argv := by
  unfold launch at h
  dsimp only at h
  split at h
  · exact absurd h (by simp [bind, Except.bind])
  obtain ⟨directory, hdirectory, h⟩ := ok_of_bind h
  obtain ⟨program, -, h⟩ := ok_of_bind h
  obtain ⟨ending', -, h⟩ := ok_of_bind h
  obtain ⟨rfl, rfl⟩ := Prod.mk.inj (Except.ok.inj h)
  exact ⟨eq_of_directoryOf hlies hdirectory, rfl⟩

/-- The same is started in trees that look the same from the directory, and the same comes of it. -/
theorem launch_congr (hlies : LiesAt t m.cwd target d) (hlooks : looks → m.LooksIn d)
    (h : Alike looks d t u) :
    m.launch argv (some target) u = m.launch argv (some target) t := by
  have hdir : m.directoryOf u (some target) = m.directoryOf t (some target) :=
    h.view.congr (f := fun t => m.directoryOf t (some target)) fun _ => directoryOf_seenFrom
  have hresolve : ∀ place program, m.resolve u place program = m.resolve t place program :=
    fun place program => h.view.congr (f := fun t => m.resolve t place program)
      fun _ => resolve_seenFrom
  unfold launch
  simp only [hdir, hresolve]
  split
  · rfl
  rcases hdirectory : m.directoryOf t (some target) with e | directory
  · rfl
  obtain rfl := eq_of_directoryOf hlies hdirectory
  have hexecute : ∀ program, m.execute u ⟨program, argv, directory⟩ =
      m.execute t ⟨program, argv, directory⟩ := fun _ => h.execute hlooks rfl
  simp only [bind, Except.bind, hexecute]

end Machine

/-! ### Worlds side by side -/

/-- Two worlds with the same past, between which work for a session cannot tell. -/
structure WorldsBeside (looks : Prop) (l : Pipeline) (home : Place) (n : Nat) (target : Path)
    (d : Place)
    (s : SessionStore) (w w' : World) : Prop where
  places : Beside looks l home n target d ⟨s, w.files⟩ ⟨s, w'.files⟩
  calls : w'.calls = w.calls
  clock : w'.clock = w.clock

/-- What happens in a world: files change for the session, and commands are started in its
directory. -/
structure WorldMoves (l : Pipeline) (target : Path) (d : Place) (w x : World) : Prop where
  files : Changes l target d w.files x.files
  calls : ∃ new, x.calls = w.calls ++ new ∧ ∀ c ∈ new, Started target d c

instance : Std.Refl (WorldMoves l target d) := ⟨fun w => ⟨refl_of _ w.files, [], by simp, by simp⟩⟩

instance : IsTrans World (WorldMoves l target d) := by
  refine ⟨fun w x y h h' => ⟨trans_of _ h.files h'.files, ?_⟩⟩
  obtain ⟨new, hnew, hstarted⟩ := h.calls
  obtain ⟨more, hmore, hstarted'⟩ := h'.calls
  refine ⟨new ++ more, by rw [hmore, hnew, List.append_assoc], fun c hc => ?_⟩
  exact (List.mem_append.mp hc).elim (hstarted c) (hstarted' c)

theorem WorldMoves.of_files (h : Changes l target d w.files t) :
    WorldMoves l target d w { w with files := t } :=
  ⟨h, [], by simp, by simp⟩

namespace Machine

variable {argv : List String} {limit? : Option Nat}

/-- Starting a command in the directory of a session. -/
theorem agree_start (hlooks : looks → l.machine.LooksIn d)
    (h : WorldsBeside looks l home n target d s w w')
    (hpath : ∃ q, Within target q ∧ argv.getLast? = some q.text) :
    Agree (WorldsBeside looks l home n target d s) (WorldMoves l target d) w w'
      (ExceptT.run (l.machine.start argv (some target) limit?))
      (ExceptT.run (l.machine.start argv (some target) limit?)) := by
  have hlies := h.places.scope.lies
  have hsame : l.machine.launch argv (some target) w'.files =
      l.machine.launch argv (some target) w.files := launch_congr hlies hlooks h.places.files
  rw [start_eq]
  rcases hlaunch : l.machine.launch argv (some target) w.files with e | ⟨call, ending⟩ <;>
    rw [hlaunch] at hsame
  · refine .of_outcome ?_ ?_ ?_
    · rw [Work.outcome_of, Work.outcome_of, hlaunch, hsame]
    · rw [Work.after_of, Work.after_of, hlaunch, hsame]
      exact h
    · rw [Work.after_of, hlaunch]
      exact refl_of _ w
  · obtain ⟨hdirectory, hargv⟩ := of_launch hlies hlaunch
    refine .of_outcome ?_ ?_ ?_
    · rw [Work.outcome_of, Work.outcome_of, hlaunch, hsame]
    · rw [Work.after_of, Work.after_of, hlaunch, hsame]
      exact ⟨h.places, by rw [h.calls], by rw [h.clock]⟩
    · rw [Work.after_of, hlaunch]
      refine ⟨refl_of _ w.files, [call], rfl, fun c hc => ?_⟩
      obtain rfl := List.mem_singleton.mp hc
      exact ⟨hdirectory, hargv ▸ hpath⟩

theorem agree_runTool {tool : String} {seconds : Nat} {cancelled : Bool}
    (hlooks : looks → l.machine.LooksIn d) (h : WorldsBeside looks l home n target d s w w')
    (hpath : ∃ q, Within target q ∧ argv.getLast? = some q.text) :
    Agree (WorldsBeside looks l home n target d s) (WorldMoves l target d) w w'
      (l.machine.runTool argv tool seconds (some target) cancelled)
      (l.machine.runTool argv tool seconds (some target) cancelled) := by
  unfold runTool
  split
  · exact .pure _ h
  split
  · exact .pure _ h
  refine Agree.bind (agree_start hlooks h hpath) ?_
  rintro result x x' - hx
  split
  · exact .pure _ hx
  · split_ifs <;> exact .pure _ hx

end Machine

namespace Invoker

variable {cancelled : Bool} {argv : List String}

/-- The last word of a command is its target. -/
theorem getLast?_command (a : Analyzer) (program config path : String) :
    (a.command program config path).getLast? = some path := by
  cases a <;> rfl

theorem getLast?_of_command (h : outcome (l.invoker.command place a q) t = .ok argv) :
    argv.getLast? = some q.text := by
  obtain ⟨config?, -, h⟩ := bind_ok h
  obtain rfl := Except.ok.inj h
  exact getLast?_command ..

/-- Preparing the command of an analyzer only writes the file that configures it. -/
theorem agree_command (h : WorldsBeside looks l home n target d s w w') :
    outcome (l.invoker.command l.machine.cwd a q) w'.files =
        outcome (l.invoker.command l.machine.cwd a q) w.files ∧
      WorldsBeside looks l home n target d s
        { w with files := after (l.invoker.command l.machine.cwd a q) w.files }
        { w' with files := after (l.invoker.command l.machine.cwd a q) w'.files } ∧
      WorldMoves l target d w
        { w with files := after (l.invoker.command l.machine.cwd a q) w.files } := by
  obtain ⟨last, hlast, hname⟩ := h.places.scope.last
  have hrespects : Respects (SameView d) (l.invoker.command l.machine.cwd a q) :=
    (respects_ensureConfig hlast hname _ a).bind fun _ => Respects.pure _
  obtain ⟨houtcome, hview⟩ := hrespects _ _ h.places.files.view
  have hafter : after (l.invoker.command l.machine.cwd a q) w.files =
      after (l.invoker.ensureConfig l.machine.cwd a) w.files := by
    unfold command
    rw [after_bind]
    split <;> rfl
  have hchange : Changes l target d w.files (after (l.invoker.command l.machine.cwd a q) w.files) :=
    hafter ▸ .single (.config _ a)
  exact ⟨houtcome, ⟨⟨h.places.scope.changed hchange, h.places.files.step hview, rfl⟩,
    h.calls, h.clock⟩,
    .of_files hchange⟩

theorem agree_run (hlooks : looks → l.machine.LooksIn d)
    (h : WorldsBeside looks l home n target d s w w') (hq : Within target q) :
    Agree (WorldsBeside looks l home n target d s) (WorldMoves l target d) w w'
      (l.invoker.run l.machine a target q cancelled)
      (l.invoker.run l.machine a target q cancelled) := by
  unfold run
  refine .get_bind ?_
  have hsources : w'.files.hasSources l.machine.cwd q = w.files.hasSources l.machine.cwd q :=
    h.places.files.view.congr (f := fun t => t.hasSources l.machine.cwd q)
      fun _ => hasSources_seenFrom
  rw [hsources]
  split
  · exact .pure _ h
  rw [Disk.run_eq, Disk.run_eq]
  obtain ⟨houtcome, hbeside, hmoves⟩ := agree_command h
  rw [houtcome]
  refine Agree.bind (.set hbeside hmoves) ?_
  rintro - x x' - hx
  rcases hargv : outcome (l.invoker.command l.machine.cwd a q) w.files with e | argv
  · exact .pure _ hx
  · refine Agree.bind (Machine.agree_runTool hlooks hx ⟨q, hq, getLast?_of_command hargv⟩) ?_
    exact fun _ _ _ _ hy => .pure _ hy

theorem rootOf_seenFrom {m : Machine} : rootOf m (t.seenFrom d) q = rootOf m t q := by
  simp only [rootOf, canonical, find_seenFrom]

/-- Running an analyzer and reading what it prints. -/
theorem agree_analyze (hlooks : looks → l.machine.LooksIn d)
    (h : WorldsBeside looks l home n target d s w w') (hq : Within target q) :
    Agree (WorldsBeside looks l home n target d s) (WorldMoves l target d) w w'
      (l.invoker.analyze l.machine a target q cancelled)
      (l.invoker.analyze l.machine a target q cancelled) := by
  unfold analyze
  refine Agree.bind (agree_run hlooks h hq) ?_
  rintro r x x' - hx
  refine .get_bind ?_
  have hroot : rootOf l.machine x'.files target = rootOf l.machine x.files target :=
    hx.places.files.view.congr (f := fun t => rootOf l.machine t target) fun _ => rootOf_seenFrom
  rw [hroot]
  exact .pure _ hx

end Invoker

/-! ### Analyses -/

namespace Analysis

variable {level : Level} {cancelled : Bool}

/-- Every step of an analysis is for the session whose analyzers it runs. -/
theorem agree_step (hlooks : looks → l.machine.LooksIn d)
    (h : WorldsBeside looks l home n target d s w w') (state : Analysis) :
    Agree (WorldsBeside looks l home n target d s) (WorldMoves l target d) w w'
      (l.step target level cancelled state) (l.step target level cancelled state) := by
  have hanalyze : ∀ a, Agree (WorldsBeside looks l home n target d s) (WorldMoves l target d) w w'
      (l.invoker.analyze l.machine a target target cancelled)
      (l.invoker.analyze l.machine a target target cancelled) := fun a =>
    Invoker.agree_analyze hlooks h (.refl target)
  unfold Pipeline.step step
  cases state.phase with
  | scan => exact Agree.bind (hanalyze _) fun _ _ _ _ hx => .pure _ hx
  | recordScan => exact .pure _ h
  | afterScan => exact .pure _ h
  | classify =>
    have hkind : w'.files.classify l.machine.cwd target = w.files.classify l.machine.cwd target :=
      h.places.files.view.congr (f := fun t => t.classify l.machine.cwd target) fun _ =>
        classify_seenFrom
    refine Agree.bind (.get_bind ?_) fun _ _ _ _ hx => .pure _ hx
    rw [hkind]
    exact .pure _ h
  | lint => exact Agree.bind (hanalyze _) fun _ _ _ _ hx => .pure _ hx
  | recordLint => exact .pure _ h
  | afterLint => exact .pure _ h
  | measure => exact Agree.bind (hanalyze _) fun _ _ _ _ hx => .pure _ hx
  | recordMeasure => exact .pure _ h
  | done => exact .pure _ h

/-- So is every run of steps. -/
theorem agree_advance {stop : StateM World Bool} (hlooks : looks → l.machine.LooksIn d)
    (hstop : ∀ x x', WorldsBeside looks l home n target d s x x' →
      Agree (WorldsBeside looks l home n target d s) (WorldMoves l target d) x x' stop stop)
    (steps : Nat) (state : Analysis) (h : WorldsBeside looks l home n target d s w w') :
    Agree (WorldsBeside looks l home n target d s) (WorldMoves l target d) w w'
      (advance (l.step target level cancelled) stop steps state)
      (advance (l.step target level cancelled) stop steps state) := by
  induction steps generalizing state w w' with
  | zero => exact .pure _ h
  | succ steps ih =>
    unfold advance
    refine Agree.bind (hstop w w' h) ?_
    rintro stopped x x' - hx
    split
    · exact .pure _ hx
    · exact Agree.bind (agree_step hlooks hx state) fun next y y' _ hy => ih next hy

end Analysis

namespace Pipeline

variable {level : Level}

theorem agree_checkRoot (h : WorldsBeside looks l home n target d s w w') :
    l.checkRoot w'.files target = l.checkRoot w.files target :=
  h.places.files.view.congr (f := fun t => l.checkRoot t target) fun t => by
    simp only [checkRoot, find_seenFrom, hasDirectory_seenFrom]

/-- An analysis goes on where its root is accepted. -/
theorem outcome_checkRoot {p : Pipeline} {root : Path} (h : p.checkRoot w.files root = .ok ()) :
    outcome (ExceptT.mk (do pure (p.checkRoot (← get).files root)) : Work RootError Unit) w =
      .ok () := h

/-- Analyzing a project, as far as it gets. -/
theorem agree_analyzeWithin (millis : Nat) (hlooks : looks → l.machine.LooksIn d)
    (h : WorldsBeside looks l home n target d s w w') :
    Agree (WorldsBeside looks l home n target d s) (WorldMoves l target d) w w'
      (ExceptT.run (l.analyzeWithin target level millis))
      (ExceptT.run (l.analyzeWithin target level millis)) := by
  unfold analyzeWithin
  generalize Analysis.stepCount = steps
  refine Agree.bindE ?_ ?_
  · refine Agree.get_bind ?_
    rw [agree_checkRoot h]
    exact .pure _ h
  rintro - x x' - - hx
  refine .getE_bind ?_
  rw [hx.clock]
  refine Agree.bindE (Work.agree_ofState (Analysis.agree_advance hlooks ?_ steps .initial hx)) ?_
  · rintro y y' hy
    refine .get_bind ?_
    rw [hy.clock]
    exact .pure _ hy
  · exact fun _ _ _ _ _ hy => .pureE _ hy

/-- Looking again at a file of a project. -/
theorem agree_reanalyze {file : Path} (hfile : Within target (target.join file))
    (hlooks : looks → l.machine.LooksIn d)
    (h : WorldsBeside looks l home n target d s w w') :
    Agree (WorldsBeside looks l home n target d s) (WorldMoves l target d) w w'
      (l.reanalyze target file level) (l.reanalyze target file level) := by
  unfold reanalyze
  exact Agree.bind (Invoker.agree_analyze hlooks h hfile) fun _ _ _ _ hx => .pure _ hx

end Pipeline

end ReviewMentor

import ReviewMentor.Proofs.Analysis.Outcomes
import ReviewMentor.Proofs.Files.Contents

/-!
# Projects that are looked at

Analyzers are given files that configure them, and nothing else is written to run them. Where these
files lie apart from a project, running analyzers leaves the project where it is and its files as
they are.
-/

namespace ReviewMentor

open FileTree Effect

/-! ### Projects -/

namespace FileTree

/-- A project in a tree to work in: a directory that is found under a path, and in which no link
lies. -/
structure Project (start : Place) (target : Path) (d : Place) (t : FileTree) : Prop where
  standing : Standing start t
  found : t.find start true target = .ok d
  isDirectory : t.lookup? d = some .directory
  linkFree : LinkFree t d

namespace Project

variable {t u : FileTree} {start d : Place} {target p : Path} {content : ByteArray}

theorem lies (h : Project start target d t) : LiesAt t start target d :=
  ⟨leads_of_find h.found, h.linkFree⟩

/-- A project stays where it is while ways stay. -/
theorem of_waysStay (h : Project start target d t) (hstanding : Standing start u)
    (hways : WaysStay t u) (hlinks : SameLinks t u) : Project start target d u := by
  refine ⟨hstanding, hways.find (fun _ _ hfile => ?_) h.found,
    hways _ _ h.isDirectory (by simp), hlinks.linkFree h.linkFree⟩
  rw [h.isDirectory] at hfile
  exact absurd hfile (by simp)

theorem makeDirectories (h : Project start target d t) (p : Path) :
    Project start target d (t.makeDirectories start p).1 :=
  have hway := wayMade_makeDirectories t start p
  h.of_waysStay (h.standing.makeDirectories p) hway.waysStay hway.sameLinks

theorem of_writeBytes (h : Project start target d t)
    (hwrite : t.writeBytes start p content = .ok u) : Project start target d u :=
  h.of_waysStay (h.standing.of_writeBytes hwrite) (waysStay_writeBytes hwrite)
    (sameLinks_writeBytes hwrite)

end Project

end FileTree

namespace Invoker

variable {v : Invoker} {t u : FileTree} {start d : Place} {target : Path} {name file : String}

/-! ### Generated files -/

/-- The directory of generated files is not in another directory, and none of their names is a link
there. -/
def Apart (v : Invoker) (start d : Place) (t : FileTree) : Prop :=
  ∃ c, Leads t nowhere (origin start v.configDirectory) v.configDirectory.parts c ∧ ¬ d <+: c ∧
    ∀ name ∈ v.configNames, ∀ s, t.lookup? (c ++ [name]) ≠ some (.link s)

theorem Apart.of_sameLinks (h : v.Apart start d t) (hlinks : SameLinks t u) :
    v.Apart start d u := by
  obtain ⟨c, hlead, hapart, hnames⟩ := h
  exact ⟨c, hlinks.leads hlead, hapart, fun name hname s hs =>
    hnames name hname s ((hlinks _ s).mp hs)⟩

theorem storable_configFile {a : Analyzer} (h : a.configFile? = some file) : Storable file := by
  have hfixed : file = "ruff.toml" ∨ file = ".pylintrc" ∨ file = ".bandit" := by
    cases a <;> simp_all [Analyzer.configFile?]
  refine ⟨(isName_configNames (mem_configNames (v := ⟨.standard, ⟨""⟩, 0⟩) h).1).1, ?_, ?_⟩ <;>
    rcases hfixed with rfl | rfl | rfl <;> decide

/-- What happened to a tree left a project where it is and its files as they are, if generated files
lie apart from it. -/
def SparesProject (v : Invoker) (start : Place) (target : Path) (d : Place) (t u : FileTree) :
    Prop :=
  Project start target d t → v.Apart start d t →
    Project start target d u ∧ v.Apart start d u ∧ u.contents d = t.contents d

instance (v : Invoker) (start : Place) (target : Path) (d : Place) :
    Std.Refl (v.SparesProject start target d) := ⟨fun _ hp ha => ⟨hp, ha, rfl⟩⟩

instance (v : Invoker) (start : Place) (target : Path) (d : Place) :
    IsTrans FileTree (v.SparesProject start target d) := by
  refine ⟨fun t u w h h' hp ha => ?_⟩
  obtain ⟨hp', ha', hsame⟩ := h hp ha
  obtain ⟨hp'', ha'', hsame'⟩ := h' hp' ha'
  exact ⟨hp'', ha'', hsame'.trans hsame⟩

theorem sparesProject_makeDirectories (v : Invoker) (p : Path) (t : FileTree) :
    v.SparesProject start target d t (t.makeDirectories start p).1 := fun hp ha =>
  have hway := wayMade_makeDirectories t start p
  ⟨hp.makeDirectories p, ha.of_sameLinks hway.sameLinks, hway.contents_eq d⟩

/-- A generated file is written under its name. -/
theorem sparesProject_writeText {text : String} (hname : name ∈ v.configNames)
    (h : t.writeText start (v.configDirectory.child name) text = .ok u) :
    v.SparesProject start target d t u := by
  intro hp ha
  have hlinks := sameLinks_writeBytes h
  have hp' := hp.of_writeBytes h
  refine ⟨hp', ha.of_sameLinks hlinks, contents_of_lookup?_eq fun place hbelow => ?_⟩
  obtain ⟨c, hlead, hapart, hnames⟩ := ha
  obtain ⟨written, mode, hwritten, -, hnew, hkeep⟩ := writeBytes_ok h
  have hisName := (isName_configNames hname).1
  rw [origin, Path.isAbsolute_child hisName, Path.parts_child hisName] at hwritten
  obtain ⟨mid, hmid, hlast⟩ := hwritten.split
  obtain rfl := hmid.unique hlead
  obtain rfl : written = mid ++ [name] := by
    rcases hlast.of_step hisName.ne_here hisName.ne_up with ⟨-, hdone⟩ | ⟨s, hs, -⟩
    · cases hdone
      rfl
    · exact absurd hs (hnames name hname s)
  refine hkeep place ?_
  rintro rfl
  rcases List.prefix_concat_iff.mp hbelow with rfl | hbelow
  · rw [hp'.isDirectory] at hnew
    exact absurd hnew (by simp)
  · exact hapart hbelow

/-- A generated file that is moved to its name replaces a file at most. -/
theorem sparesProject_rename {a : Analyzer} (hconfig : a.configFile? = some file)
    (h : t.rename start (v.configDirectory.child (v.stagingName file))
      (v.configDirectory.child file) = .ok u) :
    v.SparesProject start target d t u := by
  intro hp ha
  rcases rename_ok h with rfl | ⟨old, spot, e, hold, hspot, hentry, hfile, hfree, hmoved⟩
  · exact ⟨hp, ha, rfl⟩
  obtain ⟨hto, hfrom⟩ := mem_configNames (v := v) hconfig
  obtain ⟨c, hlead, hapart, hnames⟩ := id ha
  obtain ⟨mid, hmid, hplace⟩ := place_of_child (isName_configNames hfrom).1 hold
  obtain ⟨mid', hmid', hnew⟩ := place_of_child (isName_configNames hto).1 hspot
  obtain rfl := hmid.unique hlead
  obtain rfl := hmid'.unique hmid
  obtain rfl : old = mid' ++ [v.stagingName file] := hplace
  rw [hnew] at hfree hmoved
  obtain ⟨content, mode, rfl⟩ : ∃ content mode, e = .file content mode := by
    rcases e with _ | ⟨content, mode⟩ | s
    · exact absurd rfl hfile
    · exact ⟨content, mode, rfl⟩
    · exact absurd hentry (hnames _ hfrom s)
  have hover : ∀ e, t.lookup? (mid' ++ [file]) = some e → ∃ old mode, e = .file old mode := by
    rintro (_ | ⟨old, mode⟩ | s) he
    · exact absurd he hfree
    · exact ⟨old, mode, rfl⟩
    · exact absurd he (hnames _ hto s)
  have hsound := hp.standing.sound
  have hlinks := sameLinks_moved hsound hentry hover hmoved
  have hstanding : Standing start u := standing_moved hsound hentry hover hmoved hp.standing.start
    (storable_configFile hconfig)
  refine ⟨hp.of_waysStay hstanding (waysStay_moved hsound hentry hover hmoved) hlinks,
    ha.of_sameLinks hlinks, contents_of_lookup?_eq fun place hbelow => ?_⟩
  exact lookup?_moved hsound hentry hover hmoved hp.isDirectory hapart hbelow

/-- Writing the file that configures an analyzer spares a project. -/
theorem sparesProject_ensureConfig (v : Invoker) (start : Place) (target : Path) (d : Place)
    (a : Analyzer) : Keeps (v.SparesProject start target d) (v.ensureConfig start a) := by
  unfold ensureConfig
  split
  · next file content hfile _ =>
    refine Keeps.bind (fun t => v.sparesProject_makeDirectories _ t) fun _ => ?_
    refine Keeps.bind (Disk.keeps_change fun t u h => ?_) fun _ => ?_
    · exact sparesProject_writeText (mem_configNames hfile).2 h
    · exact Keeps.bind (Disk.keeps_change fun t u h => sparesProject_rename hfile h) fun _ =>
        Keeps.pure _
  · exact Keeps.pure _

end Invoker

/-! ### Running analyzers -/

/-- Work in the world leaves files as some property says, if they were so before. -/
def LeavesFiles (P : FileTree → Prop) {α : Type} (x : StateM World α) : Prop :=
  ∀ w, P w.files → P (StateT.run x w).2.files

namespace LeavesFiles

variable {P : FileTree → Prop} {α β : Type}

theorem pure (a : α) : LeavesFiles P (Pure.pure a : StateM World α) := fun _ h => h

theorem bind {x : StateM World α} {f : α → StateM World β} (hx : LeavesFiles P x)
    (hf : ∀ a, LeavesFiles P (f a)) : LeavesFiles P (x >>= f) := by
  intro w hw
  rw [StateT.run_bind]
  exact hf _ _ (hx w hw)

theorem get_bind {f : World → StateM World β}
    (hf : ∀ w, P w.files → P (StateT.run (f w) w).2.files) : LeavesFiles P (get >>= f) := hf

/-- A look at the world leaves it as it is. -/
theorem look (f : World → α) : LeavesFiles P (do return f (← get)) := fun _ h => h

end LeavesFiles

section Running

variable {P : FileTree → Prop} {l : Pipeline} {a : Analyzer} {root q : Path} {level : Level}
  (hconfig : ∀ a t, P t → P (after (l.invoker.ensureConfig l.machine.cwd a) t))

include hconfig

/-- Running an analyzer writes no file but the one that configures it. -/
theorem leavesFiles_run (a : Analyzer) (root q : Path) :
    LeavesFiles P (l.invoker.run l.machine a root q false) := by
  unfold Invoker.run
  refine .get_bind fun w hw => ?_
  split
  · exact hw
  rw [Disk.run_eq, Invoker.after_command]
  rcases hcommand : outcome (l.invoker.command l.machine.cwd a q) w.files with e | argv
  · exact hconfig a _ hw
  · obtain ⟨started, clock, -, hrun⟩ := l.machine.runTool_eq argv a.name
      (l.invoker.settings.timeout a) (some root)
      { w with files := after (l.invoker.ensureConfig l.machine.cwd a) w.files }
    dsimp only
    rw [Work.run_set_bind, StateT.run_bind, hrun]
    exact hconfig a _ hw

theorem leavesFiles_analyze (a : Analyzer) (root q : Path) :
    LeavesFiles P (l.invoker.analyze l.machine a root q false) :=
  (leavesFiles_run hconfig a root q).bind fun _ => .look _

theorem leavesFiles_step (level : Level) (state : Analysis) :
    LeavesFiles P (l.step root level false state) := by
  have hanalyze : ∀ a, LeavesFiles P (l.invoker.analyze l.machine a root root false) := fun a =>
    leavesFiles_analyze hconfig a root root
  unfold Pipeline.step Analysis.step
  cases state.phase with
  | scan => exact (hanalyze _).bind fun _ => .pure _
  | recordScan => exact .pure _
  | afterScan => exact .pure _
  | classify => exact LeavesFiles.bind (.look _) fun _ => .pure _
  | lint => exact (hanalyze _).bind fun _ => .pure _
  | recordLint => exact .pure _
  | afterLint => exact .pure _
  | measure => exact (hanalyze _).bind fun _ => .pure _
  | recordMeasure => exact .pure _
  | done => exact .pure _

theorem leavesFiles_advance {stop : StateM World Bool} (hstop : LeavesFiles P stop) (level : Level)
    (steps : Nat) (state : Analysis) :
    LeavesFiles P (Analysis.advance (l.step root level false) stop steps state) := by
  induction steps generalizing state with
  | zero => exact .pure _
  | succ steps ih =>
    unfold Analysis.advance
    refine hstop.bind fun stopped => ?_
    split
    · exact .pure _
    · exact (leavesFiles_step hconfig level state).bind fun next => ih next

/-- Looking at a project, as far as one gets, leaves its files as they are. -/
theorem files_analyzeWithin {w : World} (root : Path) (level : Level) (millis : Nat)
    (hw : P w.files) : P (after (l.analyzeWithin root level millis) w).files := by
  unfold Pipeline.analyzeWithin
  rw [after_bind]
  split
  · rw [after_get_bind]
    dsimp only
    rw [after_bind_ok (Work.outcome_ofState _ _), Work.after_ofState]
    exact leavesFiles_advance hconfig (.look _) level _ _ w hw
  · exact hw

theorem files_reanalyze {w : World} (root file : Path) (level : Level) (hw : P w.files) :
    P (StateT.run (l.reanalyze root file level) w).2.files :=
  (leavesFiles_analyze hconfig _ _ _).bind (fun _ => .pure _) w hw

end Running

end ReviewMentor

import ReviewMentor.Proofs.Findings.Keys
import ReviewMentor.Proofs.Service.Edits
import ReviewMentor.Proofs.Service.Refusals
import ReviewMentor.Proofs.Sessions.Looks

/-!
# The steps of a request

A request to look at new code writes the code, runs ruff on it, and then edits the review that is
known of the session. Other requests may come between these steps. A request whose steps follow one
another does what it does when it is answered.
-/

namespace ReviewMentor

open FileTree Effect SessionStore Handling

namespace Handling

variable {α β ε : Type} {f : SessionStore → Except SessionError α} {g : α → Handling β} {x : Scene}

theorem outcome_ask (f : SessionStore → Except SessionError α) (x : Scene) :
    outcome (ask f) x = (f x.sessions).mapError .ofSession := rfl

theorem outcome_onFiles (account : ε → Refusal) (w : Disk ε α) (x : Scene) :
    outcome (onFiles account w) x = (outcome w x.world.files).mapError account := rfl

theorem outcome_inWorld (w : StateM World α) (x : Scene) :
    outcome (inWorld w) x = .ok (StateT.run w x.world).1 := rfl

theorem outcome_ask_bind : outcome (ask f >>= g) x =
    match f x.sessions with
    | .ok a => outcome (g a) x
    | .error e => .error (.ofSession e) := by
  rcases hf : f x.sessions with e | a
  · exact outcome_bind_error (by rw [outcome_ask, hf]; rfl)
  · exact outcome_look rfl (by rw [outcome_ask, hf]; rfl)

theorem after_ask_bind : after (ask f >>= g) x =
    match f x.sessions with
    | .ok a => after (g a) x
    | .error _ => x := by
  rcases hf : f x.sessions with e | a
  · exact after_bind_error (by rw [outcome_ask, hf]; rfl)
  · exact after_bind_ok (by rw [outcome_ask, hf]; rfl)

end Handling

/-! ### The name of a file in reviews -/

namespace Path

/-- A text that is the names to which it leads, joined by slashes. -/
def IsKey (file : String) : Prop := file = Text.join "/" (Path.mk file).goal

/-- What is told by its names is one file only. -/
theorem IsKey.eq_of_goal {file other : String} (h : IsKey file) (hother : IsKey other)
    (hgoal : (Path.mk other).goal = (Path.mk file).goal) : other = file := by
  rw [hother, h, hgoal]

namespace Inner

variable {file : String} (h : Inner file)

include h

theorem steps_eq : (Path.mk file).steps = (Path.mk file).goal.map .name := by
  have hnames : (Path.mk file).steps =
      ((Path.mk file).steps.map Component.text).map .name := by
    rw [List.map_map]
    refine (List.map_id _).symm.trans (List.map_congr_left fun c hc => ?_)
    have hstep := isStep_of_mem_steps c hc
    have hup := up_not_mem_steps h.noUp
    cases c with
    | root => exact absurd hstep id
    | here => exact absurd hstep id
    | up => exact absurd hc hup
    | name n => rfl
  rw [goal, @goalFrom_of_names [] _ _ hnames, List.nil_append]
  exact hnames

/-- A file in a directory is told by its names, whatever the directory is. -/
theorem relative_eq (hne : (Path.mk file).goal ≠ []) (root : Root) :
    root.relative file = Text.join "/" (Path.mk file).goal := by
  rw [root.relative_of_relative h.relative, h.steps_eq, slashed_names, if_neg (by simpa using hne)]

theorem goal_relative (hne : (Path.mk file).goal ≠ []) (root : Root) :
    (Path.mk (root.relative file)).goal = (Path.mk file).goal := by
  have hsteps := Root.steps_slashed (isStep_of_mem_steps (p := ⟨file⟩))
  rw [h.steps_eq] at hsteps
  rw [h.relative_eq hne, ← slashed_names]
  exact @goalFrom_of_names [] _ _ hsteps

theorem isKey_relative (hne : (Path.mk file).goal ≠ []) (root : Root) :
    IsKey (root.relative file) := by
  rw [IsKey, h.goal_relative hne, h.relative_eq hne]

end Inner

end Path

/-! ### The steps of a request -/

namespace CodeChange

/-- The level at which a request looks at code: the one asked for, or that of the known review. -/
def levelFor (c : CodeChange) (known? : Option Review) : Level :=
  (c.level.orElse fun _ => known?.map Review.level).getD Level.default

/-- The first step: the code is written. What to look at is the root, the file as it is told
relative to the root, and the level; nothing is looked at if the code is blank. -/
def write (s : Service) (c : CodeChange) : Handling (Option (Path × String × Level)) := do
  let known? ← Handling.ask (·.result c.session)
  if Text.isAllBlank c.code then return none
  let root ← Handling.ask (·.directory c.session)
  let path ← Handling.ask (·.resolve c.session c.file)
  let file := (Invoker.rootOf s.pipeline.machine (← Handling.files) root).relative c.file
  Handling.onFiles (fun _ => .broken) (s.writeCode path c.code)
  pure (some (root, file, c.levelFor known?))

/-- The last step, after ruff was run: the review is edited. -/
def record (c : CodeChange) (file : String) (level : Level) (report : Report) : Handling Review :=
  Handling.onSessions (Service.record c.session file level report)

end CodeChange

namespace CodeChange

variable {s : Service} {c : CodeChange} {x : Scene} {r : Http.Request} {root path : Path}
  {file : String} {level : Level} {known? : Option Review}

/-- The scene when some code was written, or could not be. -/
def writing (s : Service) (c : CodeChange) (path : Path) (x : Scene) : Scene :=
  { x with world := { x.world with files := after (s.writeCode path c.code) x.world.files } }

/-- What is written, and what is looked at next. -/
structure Writes (s : Service) (c : CodeChange) (x : Scene) (root : Path) (file : String)
    (level : Level) (path : Path) : Prop where
  level : ∃ known?, x.sessions.result c.session = .ok known? ∧ level = c.levelFor known?
  directory : x.sessions.directory c.session = .ok root
  resolve : x.sessions.resolve c.session c.file = .ok path
  file : file = (Invoker.rootOf s.pipeline.machine x.world.files root).relative c.file
  written : outcome (s.writeCode path c.code) x.world.files = .ok ()
  after : after (c.write s) x = c.writing s path x

/-- Either the code is written, or nothing is looked at and the scene stays, but for what the
attempt to write the code leaves. -/
theorem write_cases (s : Service) (c : CodeChange) (x : Scene) :
    (∃ root file level path, outcome (c.write s) x = .ok (some (root, file, level)) ∧
      Writes s c x root file level path) ∨
    ((∀ v, outcome (c.write s) x ≠ .ok (some v)) ∧
      (after (c.write s) x = x ∨ ∃ path e, x.sessions.resolve c.session c.file = .ok path ∧
        outcome (s.writeCode path c.code) x.world.files = .error e ∧
        after (c.write s) x = c.writing s path x)) := by
  have houtcome : outcome (c.write s) x = _ := outcome_ask_bind
  have hafter : after (c.write s) x = _ := after_ask_bind
  rcases hknown : x.sessions.result c.session with e | known? <;>
    rw [hknown] at houtcome hafter <;> dsimp only at houtcome hafter
  · exact .inr ⟨by simp [houtcome], .inl hafter⟩
  split_ifs at houtcome hafter
  · exact .inr ⟨by simp [houtcome], .inl hafter⟩
  rw [outcome_ask_bind] at houtcome
  rw [after_ask_bind] at hafter
  rcases hroot : x.sessions.directory c.session with e | root <;>
    rw [hroot] at houtcome hafter <;> dsimp only at houtcome hafter
  · exact .inr ⟨by simp [houtcome], .inl hafter⟩
  rw [outcome_ask_bind] at houtcome
  rw [after_ask_bind] at hafter
  rcases hpath : x.sessions.resolve c.session c.file with e | path <;>
    rw [hpath] at houtcome hafter <;> dsimp only at houtcome hafter
  · exact .inr ⟨by simp [houtcome], .inl hafter⟩
  rw [outcome_look rfl outcome_files] at houtcome
  rw [after_bind_ok outcome_files] at hafter
  have h := outcome_onFiles (fun _ => .broken) (s.writeCode path c.code) x
  rcases hwrite : outcome (s.writeCode path c.code) x.world.files with e | ⟨⟩ <;> rw [hwrite] at h
  · rw [outcome_bind_error h] at houtcome
    rw [after_bind_error (s := after files x) h] at hafter
    exact .inr ⟨by simp [houtcome], .inr ⟨path, e, rfl, hwrite, hafter⟩⟩
  · rw [outcome_bind_ok h] at houtcome
    rw [after_bind_ok (s := after files x) h] at hafter
    exact .inl ⟨_, _, _, path, houtcome, ⟨⟨known?, hknown, rfl⟩, hroot, hpath, rfl, hwrite, hafter⟩⟩

/-- A request that is answered takes its steps one after another. -/
theorem after_analyzeCode (hread : s.readJson CodeChange.read r = .ok c) :
    after (s.analyzeCode r) x =
      match outcome (c.write s) x with
      | .ok (some (root, file, level)) =>
        let look := s.pipeline.reanalyze root ⟨file⟩ level
        let y := after (c.write s) x
        after (c.record file level (StateT.run look y.world).1) (after (inWorld look) y)
      | _ => after (c.write s) x := by
  have hleft : after (s.analyzeCode r) x = _ := after_bind_ok (outcome_given hread)
  rw [hleft]
  have houtcome : outcome (c.write s) x = _ := outcome_ask_bind
  have hafter : after (c.write s) x = _ := after_ask_bind
  rw [houtcome, hafter]
  have hgiven : after (ExceptT.mk (pure (s.readJson read r)) : Handling CodeChange) x = x := rfl
  rw [hgiven, after_ask_bind]
  rcases x.sessions.result c.session with e | known?
  · rfl
  dsimp only
  split_ifs
  · rfl
  simp only [outcome_ask_bind, after_ask_bind]
  rcases x.sessions.directory c.session with e | root
  · rfl
  dsimp only
  rcases x.sessions.resolve c.session c.file with e | path
  · rfl
  dsimp only
  rw [outcome_look rfl outcome_files, after_bind_ok outcome_files, after_bind_ok outcome_files]
  have hfiles : after files x = x := rfl
  rw [hfiles]
  have h := outcome_onFiles (fun _ => .broken) (s.writeCode path c.code) x
  rcases hwrite : outcome (s.writeCode path c.code) x.world.files with e | ⟨⟩ <;> rw [hwrite] at h
  · rw [outcome_bind_error h, after_bind_error h, after_bind_error h]
  · rw [outcome_bind_ok h, after_bind_ok h, after_bind_ok h]
    rw [outcome_pure, after_pure]
    dsimp only
    generalize after (onFiles (fun _ => Refusal.broken) (s.writeCode path c.code)) x = y
    rw [after_bind_ok (outcome_inWorld _ _), after_bind, record, levelFor]
    split
    · rw [after_pure]
    · rfl


end CodeChange

/-- How far a request has come. -/
inductive Visit where
  | waiting
  /-- The code is written, and it is known what to look at. -/
  | written (root : Path) (file : String) (level : Level)
  /-- Ruff has been run. -/
  | seen (file : String) (level : Level) (report : Report)
  /-- The review is edited. -/
  | recorded (file : String)
  /-- Nothing is to be looked at. -/
  | refused
deriving DecidableEq

/-- A scene in which some requests are worked on. -/
structure Desk where
  scene : Scene
  visits : Nat → Visit

namespace Desk

/-- No request has begun. -/
def start (x : Scene) : Desk := ⟨x, fun _ => .waiting⟩

/-- A request has come further. -/
def moved (x : Desk) (i : Nat) (visit : Visit) (scene : Scene) : Desk :=
  ⟨scene, Function.update x.visits i visit⟩

section Steps

variable (s : Service) (changes : List CodeChange)

/-- A step of one request. -/
def step (i : Nat) (x : Desk) : Desk :=
  match changes[i]?, x.visits i with
  | some c, .waiting =>
    let visit := match outcome (c.write s) x.scene with
      | .ok (some (root, file, level)) => .written root file level
      | _ => .refused
    x.moved i visit (after (c.write s) x.scene)
  | some _, .written root file level =>
    let (report, world) := StateT.run (s.pipeline.reanalyze root ⟨file⟩ level) x.scene.world
    x.moved i (.seen file level report) { x.scene with world }
  | some c, .seen file level report =>
    let visit := match outcome (c.record file level report) x.scene with
      | .ok _ => .recorded file
      | .error _ => .refused
    x.moved i visit (after (c.record file level report) x.scene)
  | _, _ => x

/-- Steps of requests in some order. -/
def run (order : List Nat) (x : Desk) : Desk :=
  order.foldl (fun x i => x.step s changes i) x

/-- What a step does. -/
inductive Moves (i : Nat) (x : Desk) : Desk → Prop
  | none : Moves i x x
  | writes {c : CodeChange} {root path : Path} {file : String} {level : Level} :
      c ∈ changes → x.visits i = .waiting → c.Writes s x.scene root file level path →
      Moves i x (x.moved i (.written root file level) (c.writing s path x.scene))
  | refuses {c : CodeChange} {scene : Scene} : c ∈ changes → x.visits i = .waiting →
      (scene = x.scene ∨ ∃ path e, x.scene.sessions.resolve c.session c.file = .ok path ∧
        outcome (s.writeCode path c.code) x.scene.world.files = .error e ∧
        scene = c.writing s path x.scene) →
      Moves i x (x.moved i .refused scene)
  | looks {root : Path} {file : String} {level : Level} : x.visits i = .written root file level →
      Moves i x (x.moved i
        (.seen file level (StateT.run (s.pipeline.reanalyze root ⟨file⟩ level) x.scene.world).1)
        (after (inWorld (s.pipeline.reanalyze root ⟨file⟩ level)) x.scene))
  | records {c : CodeChange} {file : String} {level : Level} {report : Report} {visit : Visit} :
      c ∈ changes → x.visits i = .seen file level report →
      (visit = .recorded file ∨ ∃ e, outcome (c.record file level report) x.scene = .error e) →
      Moves i x (x.moved i visit (after (c.record file level report) x.scene))

theorem moves_step (i : Nat) (x : Desk) : Moves s changes i x (x.step s changes i) := by
  unfold step
  split
  · next c hc hv =>
    have hmem := List.mem_of_getElem? hc
    rcases c.write_cases s x.scene with ⟨root, file, level, path, houtcome, hwrites⟩ |
      ⟨hrefused, hscene⟩
    · rw [houtcome, hwrites.after]
      exact .writes hmem hv hwrites
    · split
      · next h => exact absurd h (hrefused _)
      · exact .refuses hmem hv hscene
  · next hv => exact .looks hv
  · next c file level report hc hv =>
    refine .records (List.mem_of_getElem? hc) hv ?_
    split
    · exact .inl rfl
    · next e he => exact .inr ⟨e, he⟩
  · exact .none

end Steps

section Equations

variable {s : Service} {changes : List CodeChange} {c : CodeChange} {x : Desk} {r : Http.Request}
  {i : Nat} {root : Path} {file : String} {level : Level} {report : Report}

@[simp] theorem scene_moved (x : Desk) (i : Nat) (visit : Visit) (scene : Scene) :
    (x.moved i visit scene).scene = scene := rfl

@[simp] theorem visits_moved_self (x : Desk) (i : Nat) (visit : Visit) (scene : Scene) :
    (x.moved i visit scene).visits i = visit := Function.update_self ..

variable (hc : changes[i]? = some c)

include hc

theorem step_waiting (hv : x.visits i = .waiting) : x.step s changes i =
    x.moved i
      (match outcome (c.write s) x.scene with
      | .ok (some (root, file, level)) => .written root file level
      | _ => .refused)
      (after (c.write s) x.scene) := by
  simp only [step, hc, hv]

theorem step_written (hv : x.visits i = .written root file level) : x.step s changes i =
    x.moved i
      (.seen file level (StateT.run (s.pipeline.reanalyze root ⟨file⟩ level) x.scene.world).1)
      (after (inWorld (s.pipeline.reanalyze root ⟨file⟩ level)) x.scene) := by
  simp only [step, hc, hv]
  rfl

theorem scene_step_seen (hv : x.visits i = .seen file level report) :
    (x.step s changes i).scene = after (c.record file level report) x.scene := by
  simp only [step, hc, hv, scene_moved]

theorem step_refused (hv : x.visits i = .refused) : x.step s changes i = x := by
  simp only [step, hc, hv]

/-- A request whose steps are taken one after another does what it does when it is answered. -/
theorem scene_run_alone (hread : s.readJson CodeChange.read r = .ok c)
    (hv : x.visits i = .waiting) :
    (x.run s changes [i, i, i]).scene = after (s.analyzeCode r) x.scene := by
  rw [CodeChange.after_analyzeCode hread]
  show (((x.step s changes i).step s changes i).step s changes i).scene = _
  rw [step_waiting hc hv]
  split
  · rw [step_written hc (visits_moved_self ..), scene_step_seen hc (visits_moved_self ..),
      scene_moved, scene_moved]
  · rw [step_refused hc (visits_moved_self ..), step_refused hc (visits_moved_self ..), scene_moved]

end Equations

end Desk

end ReviewMentor

import ReviewMentor.Proofs.Analysis.Running
import ReviewMentor.Service.Routes

/-!
# What is done for a request

Each request about a project works for one session: the one that it names, or the next one. The
steps of its answer are those of sessions and analyzers, and reading and writing files on paths that
were resolved within the session.
-/

namespace ReviewMentor

open FileTree Effect SessionStore

variable {looks : Prop} {l : Pipeline} {home d : Place} {target q : Path} {n : Nat} {x x' : Scene}

/-! ### Scenes side by side -/

/-- Two scenes with the same sessions and the same past, between which work for one of the sessions
cannot tell. -/
structure ScenesBeside (looks : Prop) (l : Pipeline) (home : Place) (n : Nat) (target : Path)
    (d : Place)
    (x x' : Scene) : Prop where
  worlds : WorldsBeside looks l home n target d x.sessions x.world x'.world
  sessions : x'.sessions = x.sessions

/-- What happens in a scene, seen at its world. -/
def SceneMoves (l : Pipeline) (target : Path) (d : Place) (x y : Scene) : Prop :=
  WorldMoves l target d x.world y.world

instance : Std.Refl (SceneMoves l target d) := ⟨fun x => refl_of (WorldMoves l target d) x.world⟩

instance : IsTrans Scene (SceneMoves l target d) :=
  ⟨fun _ _ _ h h' => trans_of (WorldMoves l target d) h h'⟩

namespace ScenesBeside

theorem scope (h : ScenesBeside looks l home n target d x x') :
    Scoped l home n target d ⟨x.sessions, x.world.files⟩ := h.worlds.places.scope

theorem view (h : ScenesBeside looks l home n target d x x') :
    SameView d x.world.files x'.world.files := h.worlds.places.files.view

end ScenesBeside

namespace Handling

variable {ε α β : Type}

section Looks

variable {A R : Scene → Scene → Prop} [Std.Refl R]

/-- What was read from a request does not depend on the scene. -/
theorem agree_given {result : Except Refusal α} {f f' : α → Handling β} (h : A x x')
    (hf : ∀ a, result = .ok a → Agree A R x x' (ExceptT.run (f a)) (ExceptT.run (f' a))) :
    Agree A R x x' (ExceptT.run (ExceptT.mk (pure result) >>= f))
      (ExceptT.run (ExceptT.mk (pure result) >>= f')) :=
  .look_bindE h ⟨rfl, rfl⟩ ⟨rfl, rfl⟩ hf

theorem agree_ask {f : SessionStore → Except SessionError α} {g g' : α → Handling β} (h : A x x')
    (hsessions : x'.sessions = x.sessions)
    (hg : ∀ a, f x.sessions = .ok a → Agree A R x x' (ExceptT.run (g a)) (ExceptT.run (g' a))) :
    Agree A R x x' (ExceptT.run (ask f >>= g)) (ExceptT.run (ask f >>= g')) := by
  have hw : outcome (ask f) x = (f x.sessions).mapError .ofSession ∧ after (ask f) x = x :=
    ⟨rfl, rfl⟩
  have hw' : outcome (ask f) x' = (f x.sessions).mapError .ofSession ∧ after (ask f) x' = x' := by
    rw [← hsessions]
    exact ⟨rfl, rfl⟩
  refine Agree.look_bindE h hw hw' fun a ha => hg a ?_
  rcases hf : f x.sessions with e | b
  · simp [hf, Except.mapError] at ha
  · simpa [hf, Except.mapError] using ha

end Looks

theorem of_onSessions {w : SessionWork α} {a : α} (h : outcome (onSessions w) x = .ok a) :
    outcome w ⟨x.sessions, x.world.files⟩ = .ok a := by
  change (outcome w ⟨x.sessions, x.world.files⟩).mapError Refusal.ofSession = .ok a at h
  rcases hw : outcome w ⟨x.sessions, x.world.files⟩ with e | b
  · simp [hw, Except.mapError] at h
  · simpa [hw, Except.mapError] using h

theorem agree_onSessions {w : SessionWork α} (h : ScenesBeside looks l home n target d x x')
    (hw : ∀ p p', Beside looks l home n target d p p' → p.sessions = x.sessions →
      Agree (Beside looks l home n target d) (Moves l target d) p p'
        (ExceptT.run w) (ExceptT.run w)) :
    Agree (ScenesBeside looks l home n target d) (SceneMoves l target d) x x'
      (ExceptT.run (onSessions w)) (ExceptT.run (onSessions w)) := by
  obtain ⟨world, sessions⟩ := x
  obtain ⟨world', sessions'⟩ := x'
  obtain rfl : sessions' = sessions := h.sessions
  obtain ⟨hvalue, halike, hmoves⟩ := hw _ _ h.worlds.places rfl
  have hplaces : Beside looks l home n target d (after w ⟨sessions', world.files⟩)
      ⟨(after w ⟨sessions', world.files⟩).sessions, (after w ⟨sessions', world'.files⟩).files⟩ :=
    ⟨halike.scope, halike.files, rfl⟩
  refine .of_outcome ?_ ⟨⟨hplaces, h.worlds.calls, h.worlds.clock⟩, halike.sessions⟩
    (.of_files hmoves)
  exact congrArg (Except.mapError Refusal.ofSession) hvalue

theorem agree_onFiles {w : Disk ε α} {account : ε → Refusal}
    (h : ScenesBeside looks l home n target d x x')
    (hchange : Changes l target d x.world.files (after w x.world.files))
    (hseen : outcome w x'.world.files = outcome w x.world.files ∧
      SameView d (after w x.world.files) (after w x'.world.files)) :
    Agree (ScenesBeside looks l home n target d) (SceneMoves l target d) x x'
      (ExceptT.run (onFiles account w)) (ExceptT.run (onFiles account w)) := by
  refine .of_outcome ?_ ⟨⟨⟨h.scope.changed hchange, h.worlds.places.files.step hseen.2, rfl⟩,
    h.worlds.calls, h.worlds.clock⟩, h.sessions⟩ (.of_files hchange)
  show (outcome w x'.world.files).mapError account = (outcome w x.world.files).mapError account
  rw [hseen.1]

theorem agree_inWorld {w : StateM World α} (h : ScenesBeside looks l home n target d x x')
    (hw : Agree (WorldsBeside looks l home n target d x.sessions) (WorldMoves l target d) x.world
      x'.world w w) :
    Agree (ScenesBeside looks l home n target d) (SceneMoves l target d) x x'
      (ExceptT.run (inWorld w)) (ExceptT.run (inWorld w)) :=
  .of_outcome (congrArg Except.ok hw.value) ⟨hw.alike, h.sessions⟩ hw.moves

/-- Both answers go on with the files that they find. -/
theorem agree_files {f f' : FileTree → Handling β}
    (h : Agree (ScenesBeside looks l home n target d) (SceneMoves l target d) x x'
      (ExceptT.run (f x.world.files)) (ExceptT.run (f' x'.world.files))) :
    Agree (ScenesBeside looks l home n target d) (SceneMoves l target d) x x'
      (ExceptT.run (files >>= f)) (ExceptT.run (files >>= f')) :=
  ⟨h.value, h.alike, h.moves⟩

end Handling

/-! ### Answers -/

/-- A line is replaced in the text that is read, and what comes of that is written if it is
another text. -/
theorem FileTree.fixLine_ok {t u : FileTree} {start : Place} {line : Nat} {new content : String}
    (h : t.fixLine start q line new = .ok (u, content)) :
    ∃ old, t.readText start q = .ok old ∧ content = Text.replaceLine old line new ∧
      (content = old ∧ u = t ∨ t.writeText start q content = .ok u) := by
  unfold fixLine at h
  split at h
  · exact absurd h (by simp)
  split at h
  · exact absurd h (by simp)
  next old hold =>
  refine ⟨old, hold, ?_⟩
  dsimp only at h
  split at h
  · next hsame =>
    obtain ⟨rfl, rfl⟩ := Prod.mk.inj (Except.ok.inj h)
    exact ⟨rfl, .inl ⟨hsame, rfl⟩⟩
  · split at h
    · next v hwrite =>
      obtain ⟨rfl, rfl⟩ := Prod.mk.inj (Except.ok.inj h)
      exact ⟨rfl, .inr hwrite⟩
    · exact absurd h (by simp)

namespace Service

variable {s : Service} {r : Http.Request}

/-- Showing a file of the session. -/
theorem agree_showFile (h : ScenesBeside looks s.pipeline home n target d x x')
    (hname : ∀ id, valueAsked r "session_id" = .ok id → id = idOf n) :
    Agree (ScenesBeside looks s.pipeline home n target d) (SceneMoves s.pipeline target d) x x'
      (ExceptT.run (s.showFile r)) (ExceptT.run (s.showFile r)) := by
  unfold showFile
  refine Handling.agree_given h fun file _ => Handling.agree_given h fun id hid => ?_
  obtain rfl := hname id hid
  refine Handling.agree_ask h h.sessions fun path hpath => Handling.agree_files ?_
  have hwithin : Within target path := h.scope.within_of_resolve hpath
  have hfile : x'.world.files.isFile s.here path = x.world.files.isFile s.here path :=
    h.view.congr (f := fun t => t.isFile s.here path) fun _ => isFile_seenFrom
  have htext : x'.world.files.readText s.here path = x.world.files.readText s.here path :=
    h.view.readText fun _ => h.scope.below_of_find hwithin
  rw [hfile, htext]
  dsimp only
  split
  · exact .throw_bindE _ h
  · split
    · exact .pureE _ h
    · exact .throwE _ h

/-- Giving the files of the session back. -/
theorem agree_exportProject (h : ScenesBeside looks s.pipeline home n target d x x')
    (hname : ∀ id, s.readJson readSessionName r = .ok id → id = idOf n) :
    Agree (ScenesBeside looks s.pipeline home n target d) (SceneMoves s.pipeline target d) x x'
      (ExceptT.run (s.exportProject r)) (ExceptT.run (s.exportProject r)) := by
  unfold exportProject
  refine Handling.agree_given h fun id hid => ?_
  obtain rfl := hname id hid
  refine Handling.agree_ask h h.sessions fun directory hdirectory => Handling.agree_files ?_
  obtain rfl : directory = target := h.scope.eq_of_directory hdirectory
  have hdir : x'.world.files.isDirectory s.here directory =
      x.world.files.isDirectory s.here directory :=
    h.view.congr (f := fun t => t.isDirectory s.here directory) fun _ => isDirectory_seenFrom
  have hexport : Zip.exportFiles x'.world.files s.here directory =
      Zip.exportFiles x.world.files s.here directory :=
    h.view.exportFiles fun _ => h.scope.below_of_find (.refl directory)
  rw [hdir, hexport]
  dsimp only
  split
  · exact .throw_bindE _ h
  · exact .pureE _ h

/-- Making a file of the session hold a new text. -/
theorem keeps_writeCode (code : String) (hq : Within target q) :
    Keeps (StaysIn s.here target d) (s.writeCode q code) := by
  have hwrite : Keeps (StaysIn s.here target d) (Disk.change fun t => t.writeText s.here q code) :=
    Disk.keeps_change fun t u hu hlies => touched_writeBytes hlies hq hu
  unfold writeCode
  split
  · next parent hparent =>
    obtain ⟨hparts, habs⟩ := Path.parts_parent? hparent
    refine Keeps.bind (fun t hlies => ?_) fun _ => hwrite
    exact ((wayMade_makeDirectories t s.here parent).extend hparts habs).touched hlies hq
  · exact hwrite

theorem respects_writeCode (code : String) : Respects (SameView d) (s.writeCode q code) := by
  unfold writeCode
  split
  · exact (Disk.respects_makeDirectories _ _).bind fun _ => Disk.respects_writeText _ _ _
  · exact Disk.respects_writeText _ _ _

/-- Looking at a file of the session again. -/
theorem agree_analyzeCode (hlooks : looks → s.pipeline.machine.LooksIn d)
    (h : ScenesBeside looks s.pipeline home n target d x x')
    (hname : ∀ change, s.readJson CodeChange.read r = .ok change → change.session = idOf n) :
    Agree (ScenesBeside looks s.pipeline home n target d) (SceneMoves s.pipeline target d) x x'
      (ExceptT.run (s.analyzeCode r)) (ExceptT.run (s.analyzeCode r)) := by
  unfold analyzeCode
  refine Handling.agree_given h fun change hchange => ?_
  rw [hname change hchange]
  refine Handling.agree_ask h h.sessions fun known? _ => ?_
  dsimp only
  split
  · exact .pureE _ h
  refine Handling.agree_ask h h.sessions fun directory hdirectory => ?_
  obtain rfl : directory = target := h.scope.eq_of_directory hdirectory
  refine Handling.agree_ask h h.sessions fun path hpath => Handling.agree_files ?_
  have hroot : Invoker.rootOf s.pipeline.machine x'.world.files directory =
      Invoker.rootOf s.pipeline.machine x.world.files directory :=
    h.view.congr (f := fun t => Invoker.rootOf s.pipeline.machine t directory) fun _ =>
      Invoker.rootOf_seenFrom
  rw [hroot]
  generalize Invoker.rootOf s.pipeline.machine x.world.files directory = root
  have hwithin : Within directory path := h.scope.within_of_resolve hpath
  have hlook : Within directory (directory.join ⟨root.relative change.file⟩) :=
    within_of_relative hpath root
  refine Agree.bindE (Handling.agree_onFiles h (.inside ?_)
    (s.respects_writeCode change.code _ _ h.view)) ?_
  · exact s.keeps_writeCode change.code hwithin _ h.scope.lies
  rintro - y y' - - hy
  refine Agree.bindE (Handling.agree_inWorld hy
    (Pipeline.agree_reanalyze hlook hlooks hy.worlds)) ?_
  rintro report z z' - - hz
  refine Agree.bindE (Handling.agree_onSessions hz fun p p' hp _ => agree_record _ _ _ _ hp) ?_
  exact fun _ _ _ _ _ hw => .pureE _ hw

/-- Replacing a line of a file, as work. -/
def fixing (s : Service) (q : Path) (order : FixOrder) : Disk FixError String :=
  Disk.of fun t =>
    match t.fixLine s.here q (order.line.getD 0) order.fix with
    | .ok (t, content) => (t, .ok content)
    | .error e => (t, .error e)

theorem touched_fixing {t : FileTree} (order : FixOrder) (hlies : LiesAt t s.here target d)
    (hq : Within target q) : Touched s.here target d t (after (s.fixing q order) t) := by
  unfold fixing
  rw [Disk.after_of]
  split
  · next u content hfix =>
    obtain ⟨old, -, -, ⟨-, rfl⟩ | hwrite⟩ := fixLine_ok hfix
    · exact .refl ..
    · exact touched_writeBytes hlies hq hwrite
  · exact .refl ..

theorem sees_fixing {t u : FileTree} (order : FixOrder) (h : SameView d t u)
    (hbelow : ∀ place, t.find s.here true q = .ok place → d <+: place) :
    outcome (s.fixing q order) u = outcome (s.fixing q order) t ∧
      SameView d (after (s.fixing q order) t) (after (s.fixing q order) u) := by
  have hseen :
      (u.fixLine s.here q (order.line.getD 0) order.fix).map (fun v => (v.1.seenFrom d, v.2)) =
      (t.fixLine s.here q (order.line.getD 0) order.fix).map fun v => (v.1.seenFrom d, v.2) :=
    h.fixLine hbelow
  unfold fixing
  rw [Disk.after_of, Disk.after_of, Disk.outcome_of, Disk.outcome_of]
  rcases ht : t.fixLine s.here q (order.line.getD 0) order.fix with e | ⟨v, content⟩ <;>
    rcases hu : u.fixLine s.here q (order.line.getD 0) order.fix with e' | ⟨v', content'⟩ <;>
    rw [ht, hu] at hseen
  · exact ⟨congrArg Except.error (Except.error.inj hseen), h⟩
  · exact absurd hseen (by simp [Except.map])
  · exact absurd hseen (by simp [Except.map])
  · obtain ⟨hview, hcontent⟩ := Prod.mk.inj (Except.ok.inj hseen)
    exact ⟨congrArg Except.ok hcontent, hview.symm⟩

/-- Applying a fix to a file of the session. -/
theorem agree_applyFix (h : ScenesBeside looks s.pipeline home n target d x x')
    (hname : ∀ order, s.readJson FixOrder.read r = .ok order → order.session = idOf n) :
    Agree (ScenesBeside looks s.pipeline home n target d) (SceneMoves s.pipeline target d) x x'
      (ExceptT.run (s.applyFix r)) (ExceptT.run (s.applyFix r)) := by
  unfold applyFix
  refine Handling.agree_given h fun order horder => ?_
  rw [hname order horder]
  refine Handling.agree_ask h h.sessions fun path hpath => ?_
  have hwithin : Within target path := h.scope.within_of_resolve hpath
  refine Agree.bindE (Handling.agree_onFiles (w := s.fixing path order) h
    (.inside (touched_fixing order h.scope.lies hwithin))
    (sees_fixing order h.view fun _ => h.scope.below_of_find hwithin)) ?_
  exact fun _ _ _ _ _ hy => .pureE _ hy

/-- Finding out the level of an upload reads no file but a profile, and changes none. -/
theorem uploadLevel_eq (asked : Option Level) (user : Option String)
    (hprofile : ∀ user, s.teacher.profiles.get s.here user x'.world.files =
      s.teacher.profiles.get s.here user x.world.files) :
    outcome (s.uploadLevel asked user) x' = outcome (s.uploadLevel asked user) x ∧
      after (s.uploadLevel asked user) x = x ∧ after (s.uploadLevel asked user) x' = x' := by
  rcases asked with _ | level
  · rcases user with _ | user
    · exact ⟨rfl, rfl, rfl⟩
    · have hlook : ∀ y : Scene, outcome (s.uploadLevel none (some user)) y =
            ((s.teacher.profiles.get s.here user y.world.files).mapError Refusal.ofProfile).map
              Profile.level ∧ after (s.uploadLevel none (some user)) y = y := by
        intro y
        have hprofiles : outcome (Handling.onFiles Refusal.ofProfile
              (Disk.ask (s.teacher.profiles.get s.here user))) y =
            (s.teacher.profiles.get s.here user y.world.files).mapError Refusal.ofProfile := rfl
        unfold uploadLevel
        rw [outcome_bind, after_bind, hprofiles]
        rcases s.teacher.profiles.get s.here user y.world.files with e | profile <;>
          exact ⟨rfl, rfl⟩
      rw [(hlook x).1, (hlook x').1, hprofile]
      exact ⟨rfl, (hlook x).2, (hlook x').2⟩
  · exact ⟨rfl, rfl, rfl⟩

/-- Reviewing an uploaded project in the next session. -/
theorem agree_analyzeUpload (hlooks : looks → s.pipeline.machine.LooksIn d)
    (h : ScenesBeside looks s.pipeline home n target d x x')
    (hn : x.sessions.serial = n)
    (hprofile : ∀ user, s.teacher.profiles.get s.here user x'.world.files =
      s.teacher.profiles.get s.here user x.world.files) :
    Agree (ScenesBeside looks s.pipeline home n target d) (SceneMoves s.pipeline target d) x x'
      (ExceptT.run (s.analyzeUpload r)) (ExceptT.run (s.analyzeUpload r)) := by
  unfold analyzeUpload
  refine Handling.agree_given h fun asked _ => Handling.agree_given h fun data _ => ?_
  dsimp only
  split
  · exact .throw_bindE _ h
  obtain ⟨hlevel, hsame, hsame'⟩ := uploadLevel_eq asked (r.shownHeader? userHeader) hprofile
  refine Agree.look_bindE h ⟨rfl, hsame⟩ ⟨hlevel, hsame'⟩ fun level _ => ?_
  refine Agree.bindE (Handling.agree_onSessions h fun p p' hp hsessions =>
    SessionWork.agree_createFromArchive data hp (hsessions ▸ hn)) ?_
  rintro session y y' hsession - hy
  obtain ⟨hid, hdirectory⟩ :=
    SessionWork.outcome_createFromArchive (Handling.of_onSessions hsession)
  dsimp only at hid hdirectory
  rw [hid, hn, h.scope.path] at hdirectory
  rw [hid, hn, hdirectory]
  refine Agree.bindE (Handling.agree_inWorld hy
    (Pipeline.agree_analyzeWithin _ hlooks hy.worlds)) ?_
  rintro result z z' - - hz
  split
  · have hcleanup := Handling.agree_onSessions hz fun p p' hp _ => SessionWork.agree_cleanup hp
    refine .getE_bind (Agree.bindE (.setE hcleanup.alike hcleanup.moves) ?_)
    exact fun _ _ _ _ _ hv => .throwE _ hv
  · refine Agree.bindE (Handling.agree_onSessions hz fun p p' hp _ =>
      SessionWork.agree_attach _ _ hp) ?_
    exact fun _ _ _ _ _ hv => .pureE _ hv

end Service

end ReviewMentor

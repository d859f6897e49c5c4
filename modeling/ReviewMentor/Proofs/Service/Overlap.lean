import Mathlib
import ReviewMentor.Proofs.Service.Desk
import ReviewMentor.Proofs.Service.Projects

/-!
# Requests that overlap

Nothing keeps the steps of two requests to look at one file together. So what a review tells of a
file is what ruff reported for the request that edited the review last, and that is about the text
on the disk only if no other request for the file was under way.
-/

namespace ReviewMentor

open FileTree Effect SessionStore Handling

namespace Visit

/-- A request that has written a file but has not yet edited what the review says of it. -/
def Holds (file : String) : Visit → Prop
  | written _ other _ => other = file
  | seen other _ _ => other = file
  | _ => False

instance (file : String) : DecidablePred (Holds file)
  | written _ other _ | seen other _ _ => inferInstanceAs (Decidable (other = file))
  | waiting | recorded _ | refused => inferInstanceAs (Decidable False)

variable {root : Path} {file other : String} {level : Level} {report : Report}

@[simp] theorem holds_written : (written root other level).Holds file ↔ other = file := Iff.rfl

@[simp] theorem holds_seen : (seen other level report).Holds file ↔ other = file := Iff.rfl

@[simp] theorem not_holds_waiting : ¬ waiting.Holds file := id

@[simp] theorem not_holds_recorded : ¬ (recorded other).Holds file := id

@[simp] theorem not_holds_refused : ¬ refused.Holds file := id

theorem holds_cases {visit : Visit} (h : visit.Holds file) :
    (∃ root level, visit = .written root file level) ∨
      ∃ level report, visit = .seen file level report := by
  cases visit with
  | written root _ level => exact .inl ⟨root, level, h ▸ rfl⟩
  | seen _ level report => exact .inr ⟨level, report, h ▸ rfl⟩
  | waiting | recorded | refused => exact absurd h id

end Visit

namespace Desk

/-- The text of a file in a directory. -/
def text? (d : Place) (file : String) (x : Desk) : Option String :=
  (x.scene.world.files.contents d).text? (Path.mk file).goal

/-- The issues that the review of a session tells of a file. -/
def issues (id file : String) (x : Desk) : List Issue :=
  match x.scene.sessions.result id with
  | .ok (some r) => r.issuesOf file
  | _ => []

end Desk

/-! ### What requests have in common -/

/-- Requests about one session look at their files at one level. -/
structure CodeChange.Alike (id : String) (known : Review) (level : Level)
    (changes : List CodeChange) : Prop where
  session : ∀ c ∈ changes, c.session = id
  level : ∀ c ∈ changes, c.levelFor (some known) = level

/-- What ruff reports on a file of a certain text: it comes to its end, and all that it tells is
about the file. -/
structure OfText (found : String → String → Report) : Prop where
  success : ∀ file text, (found file text).success = true
  own : ∀ file text, ∀ i ∈ (found file text).issues, i.file = file

namespace Desk

variable {s : Service} {changes : List CodeChange} {id : String} {known : Review} {level : Level}
  {target : Path} {d : Place} {found : String → String → Report} {x : Desk} {i : Nat}

/-- If ruff is run next for a request, it reports on the text that the file has. -/
def Reports (s : Service) (d : Place) (found : String → String → Report) (x : Desk) : Visit → Prop
  | .written root file _ => ∀ text ∈ x.text? d file,
    (StateT.run (s.pipeline.invoker.analyze s.pipeline.machine .ruff root (root.join ⟨file⟩) false)
      x.scene.world).1 = found file text
  | _ => True

instance : ∀ visit, Decidable (Reports s d found x visit)
  | .written _ _ _ => inferInstanceAs (Decidable (∀ _ ∈ _, _ = _))
  | .waiting | .seen _ _ _ | .recorded _ | .refused => inferInstanceAs (Decidable True)

/-- What holds whenever requests are worked on. -/
structure Sound (s : Service) (id : String) (known : Review) (level : Level) (target : Path)
    (d : Place) (x : Desk) : Prop where
  opened : ∃ m, Opened s id target d m x.scene
  known : ∃ r, x.scene.sessions.result id = .ok (some r) ∧ r.level = known.level
  written : ∀ i root file level', x.visits i = .written root file level' →
    level' = level ∧ Path.IsKey file ∧ ∃ text, x.text? d file = some text
  seen : ∀ i file level' report, x.visits i = .seen file level' report →
    Path.IsKey file ∧ report.success = true ∧ ∀ issue ∈ report.issues, issue.file = file
  recorded : ∀ i file, x.visits i = .recorded file → Path.IsKey file

/-- What a step does to the texts of files and to the issues of a review. -/
inductive Turns (id : String) (level : Level) (d : Place) (found : String → String → Report)
    (i : Nat) (x : Desk) : Desk → Prop
  | none : Turns id level d found i x x
  | writes {root : Path} {file : String} {level' : Level} {scene : Scene} :
      x.visits i = .waiting → Path.IsKey file →
      (∀ other, Path.IsKey other → other ≠ file →
        (x.moved i (.written root file level') scene).text? d other = x.text? d other) →
      scene.sessions = x.scene.sessions →
      Turns id level d found i x (x.moved i (.written root file level') scene)
  | refuses {scene : Scene} : x.visits i = .waiting →
      scene.world.files.contents d = x.scene.world.files.contents d →
      scene.sessions = x.scene.sessions →
      Turns id level d found i x (x.moved i .refused scene)
  | looks {root : Path} {file text : String} {scene : Scene} :
      x.visits i = .written root file level → x.text? d file = some text →
      scene.world.files.contents d = x.scene.world.files.contents d →
      scene.sessions = x.scene.sessions →
      Turns id level d found i x
        (x.moved i (.seen file level ((found file text).filterFor level)) scene)
  | records {file : String} {level' : Level} {report : Report} {scene : Scene} :
      x.visits i = .seen file level' report →
      scene.world.files.contents d = x.scene.world.files.contents d →
      (∀ other, (x.moved i (.recorded file) scene).issues id other =
        if other = file then report.issues else x.issues id other) →
      Turns id level d found i x (x.moved i (.recorded file) scene)

end Desk

namespace FileMap

theorem text?_put {m : FileMap} {names other : List String} {text : String} :
    (m.put names text.toUTF8).text? other = if other = names then some text else m.text? other := by
  split_ifs with h
  · rw [h, text?_eq_some, put_self]
  · rw [text?, put_of_ne h, text?]

end FileMap

theorem Disk.unchanged_of_error {ε : Type} {f : FileTree → Except ε FileTree} {t : FileTree} {e : ε}
    (h : outcome (Disk.change f) t = .error e) : after (Disk.change f) t = t := by
  rcases hf : f t with e' | u
  · exact (Disk.change_error hf).1
  · rw [(Disk.change_ok hf).2] at h
    exact absurd h (by simp)

namespace Mirrors

variable {s : Service} {target path : Path} {d : Place} {m : FileMap} {t : FileTree} {code : String}

/-- No file takes the place of the directory of a project. -/
theorem goal_ne_nil {names : List String} {content : ByteArray}
    (h : Mirrors s target d (m.put names content) t) : names ≠ [] := by
  rintro rfl
  have hfile : t.contents d [] = some content := by rw [h.contents, FileMap.put_self]
  obtain ⟨mode, hentry⟩ := contents_eq_some.mp hfile
  rw [List.append_nil, h.project.isDirectory] at hentry
  exact absurd hentry (by simp)

/-- Code that could not be written changes no file. -/
theorem writeCode_error {e : FileError} (h : Mirrors s target d m t)
    (hfailed : outcome (s.writeCode path code) t = .error e) :
    Mirrors s target d m (after (s.writeCode path code) t) := by
  unfold Service.writeCode at hfailed ⊢
  split at hfailed
  · next parent _ =>
    have hmade := h.makeDirectories parent
    rcases hdirectories : outcome (Disk.of fun t => t.makeDirectories s.here parent) t with e' | ⟨⟩
    · rw [after_bind_error hdirectories]
      exact hmade
    · rw [outcome_bind_ok hdirectories] at hfailed
      rw [after_bind_ok hdirectories]
      exact (Disk.unchanged_of_error hfailed).symm ▸ hmade
  · exact (Disk.unchanged_of_error hfailed).symm ▸ h

end Mirrors

/-- Requests of a session write into its project. -/
theorem CodeChange.Writes.opened {s : Service} {c : CodeChange} {x : Scene}
    {root path target : Path} {d : Place} {m : FileMap} {file : String} {level : Level}
    (h : c.Writes s x root file level path) (hopened : Opened s c.session target d m x) :
    Path.IsKey file ∧ (Path.mk file).goal = (Path.mk c.file).goal ∧
      Opened s c.session target d (m.put (Path.mk file).goal c.code.toUTF8)
        (c.writing s path x) := by
  obtain ⟨hinner, rfl⟩ := (resolve_of_directory hopened.known).mp h.resolve
  have hwritten := hopened.mirrors.writeCode hinner h.written
  have hne := hwritten.goal_ne_nil
  rw [h.file]
  refine ⟨hinner.isKey_relative hne _, hinner.goal_relative hne _, hopened.known, ?_⟩
  rw [hinner.goal_relative hne]
  exact hwritten

/-! ### One step -/

theorem Report.success_filterFor (level : Level) (r : Report) :
    (r.filterFor level).success = r.success := by
  unfold filterFor
  split_ifs <;> rfl

theorem Report.mem_of_mem_filterFor {level : Level} {r : Report} {i : Issue}
    (h : i ∈ (r.filterFor level).issues) : i ∈ r.issues := by
  unfold filterFor at h
  split_ifs at h
  · exact List.mem_of_mem_filter h
  · exact h

namespace Desk

variable {s : Service} {changes : List CodeChange} {id : String} {known : Review} {level : Level}
  {target : Path} {d : Place} {found : String → String → Report} {x : Desk} {scene : Scene}
  {i j : Nat} {visit v : Visit} {file : String} {m : FileMap}

theorem visits_moved : (x.moved i visit scene).visits j = v ↔
    (j = i ∧ visit = v) ∨ (j ≠ i ∧ x.visits j = v) := by
  by_cases h : j = i
  · subst h
    simp [moved]
  · simp [moved, h]

theorem text?_of_opened (h : Opened s id target d m x.scene) :
    x.text? d file = m.text? (Path.mk file).goal := by
  rw [text?, h.mirrors.contents]

theorem text?_congr {y : Desk}
    (h : y.scene.world.files.contents d = x.scene.world.files.contents d) :
    y.text? d file = x.text? d file := by
  rw [text?, text?, h]

theorem issues_of_result {r : Review} (h : x.scene.sessions.result id = .ok (some r)) :
    x.issues id file = r.issuesOf file := by
  rw [issues, h]

theorem issues_congr {y : Desk} (h : y.scene.sessions = x.scene.sessions) :
    y.issues id file = x.issues id file := by
  rw [issues, issues, h]

namespace Sound

theorem moved (h : Sound s id known level target d x) (hopened : ∃ m, Opened s id target d m scene)
    (hknown : ∃ r, scene.sessions.result id = .ok (some r) ∧ r.level = known.level)
    (htexts : ∀ file text, x.text? d file = some text →
      ∃ text, (x.moved i visit scene).text? d file = some text)
    (hwritten : ∀ root file level', visit = .written root file level' → level' = level ∧
      Path.IsKey file ∧ ∃ text, (x.moved i visit scene).text? d file = some text)
    (hseen : ∀ file level' report, visit = .seen file level' report → Path.IsKey file ∧
      report.success = true ∧ ∀ issue ∈ report.issues, issue.file = file)
    (hrecorded : ∀ file, visit = .recorded file → Path.IsKey file) :
    Sound s id known level target d (x.moved i visit scene) where
  opened := hopened
  known := hknown
  written j root file level' hj := by
    rcases visits_moved.mp hj with ⟨-, hvisit⟩ | ⟨-, hj⟩
    · exact hwritten root file level' hvisit
    · obtain ⟨hlevel, hkey, text, htext⟩ := h.written j root file level' hj
      exact ⟨hlevel, hkey, htexts file text htext⟩
  seen j file level' report hj := by
    rcases visits_moved.mp hj with ⟨-, hvisit⟩ | ⟨-, hj⟩
    · exact hseen file level' report hvisit
    · exact h.seen j file level' report hj
  recorded j file hj := by
    rcases visits_moved.mp hj with ⟨-, hvisit⟩ | ⟨-, hj⟩
    · exact hrecorded file hvisit
    · exact h.recorded j file hj

variable {c : CodeChange} {root path : Path} {level' : Level} {report : Report}
  (h : Sound s id known level target d x)

include h

theorem writes (halike : CodeChange.Alike id known level changes) (hc : c ∈ changes)
    (hv : x.visits i = .waiting) (hwrites : c.Writes s x.scene root file level' path) :
    Turns id level d found i x (x.moved i (.written root file level') (c.writing s path x.scene)) ∧
    Sound s id known level target d
      (x.moved i (.written root file level') (c.writing s path x.scene)) := by
  obtain ⟨m, hopened⟩ := h.opened
  obtain ⟨r, hr, hlevel⟩ := h.known
  obtain rfl := halike.session c hc
  obtain ⟨hkey, -, hwritten⟩ := hwrites.opened hopened
  have htext : ∀ other, (x.moved i (.written root file level') (c.writing s path x.scene)).text? d
      other = if (Path.mk other).goal = (Path.mk file).goal then some c.code
        else x.text? d other := by
    intro other
    rw [text?_of_opened hwritten, FileMap.text?_put, text?_of_opened hopened]
  refine ⟨.writes hv hkey (fun other hother hne => ?_) rfl,
    h.moved ⟨_, hwritten⟩ ⟨r, hr, hlevel⟩ (fun other text hother => ?_) ?_ (by simp) (by simp)⟩
  · rw [htext, if_neg fun hgoal => hne (hkey.eq_of_goal hother hgoal)]
  · rw [htext]
    split_ifs
    · exact ⟨_, rfl⟩
    · exact ⟨text, hother⟩
  · rintro _ _ _ ⟨⟩
    refine ⟨?_, hkey, c.code, by rw [htext, if_pos rfl]⟩
    obtain ⟨known?, hknown, rfl⟩ := hwrites.level
    obtain rfl : some r = known? := Except.ok.inj (hr.symm.trans hknown)
    rw [← halike.level c hc]
    simp [CodeChange.levelFor, hlevel]

theorem refuses (halike : CodeChange.Alike id known level changes) (hc : c ∈ changes)
    (hv : x.visits i = .waiting)
    (hscene : scene = x.scene ∨ ∃ path e, x.scene.sessions.resolve c.session c.file = .ok path ∧
      outcome (s.writeCode path c.code) x.scene.world.files = .error e ∧
      scene = c.writing s path x.scene) :
    Turns id level d found i x (x.moved i .refused scene) ∧
    Sound s id known level target d (x.moved i .refused scene) := by
  obtain ⟨m, hopened⟩ := h.opened
  obtain rfl := halike.session c hc
  have hkept : Opened s c.session target d m scene ∧ scene.sessions = x.scene.sessions := by
    rcases hscene with rfl | ⟨path, e, -, hfailed, rfl⟩
    · exact ⟨hopened, rfl⟩
    · exact ⟨⟨hopened.known, hopened.mirrors.writeCode_error hfailed⟩, rfl⟩
  have hcontents : scene.world.files.contents d = x.scene.world.files.contents d :=
    hkept.1.mirrors.contents.trans hopened.mirrors.contents.symm
  refine ⟨.refuses hv hcontents hkept.2, h.moved ⟨m, hkept.1⟩ ?_
    (fun other text hother => ⟨text, (text?_congr hcontents).trans hother⟩) (by simp) (by simp)
    (by simp)⟩
  rw [hkept.2]
  exact h.known

theorem looks (hof : OfText found) (hreports : Reports s d found x (x.visits i))
    (hv : x.visits i = .written root file level') :
    Turns id level d found i x (x.moved i
      (.seen file level' (StateT.run (s.pipeline.reanalyze root ⟨file⟩ level') x.scene.world).1)
      (after (inWorld (s.pipeline.reanalyze root ⟨file⟩ level')) x.scene)) ∧
    Sound s id known level target d (x.moved i
      (.seen file level' (StateT.run (s.pipeline.reanalyze root ⟨file⟩ level') x.scene.world).1)
      (after (inWorld (s.pipeline.reanalyze root ⟨file⟩ level')) x.scene)) := by
  obtain ⟨m, hopened⟩ := h.opened
  obtain ⟨rfl, hkey, text, htext⟩ := h.written i root file level' hv
  have hlooked := hopened.reanalyze root ⟨file⟩ level'
  have hsessions := sessions_inWorld (x := x.scene) (s.pipeline.reanalyze root ⟨file⟩ level')
  have hreport : (StateT.run (s.pipeline.reanalyze root ⟨file⟩ level') x.scene.world).1 =
      (found file text).filterFor level' := by
    rw [hv] at hreports
    rw [← hreports text htext]
    rfl
  rw [hreport]
  generalize after (inWorld (s.pipeline.reanalyze root ⟨file⟩ level')) x.scene = scene
    at hlooked hsessions ⊢
  have hcontents := hlooked.mirrors.contents.trans hopened.mirrors.contents.symm
  refine ⟨.looks hv htext hcontents hsessions, h.moved ⟨m, hlooked⟩ ?_
    (fun other text hother => ⟨text, (text?_congr hcontents).trans hother⟩) (by simp) ?_ (by simp)⟩
  · rw [hsessions]
    exact h.known
  · rintro _ _ _ ⟨⟩
    refine ⟨hkey, ?_, fun issue hissue => ?_⟩
    · rw [Report.success_filterFor, hof.success]
    · exact hof.own file text issue (Report.mem_of_mem_filterFor hissue)

theorem records (halike : CodeChange.Alike id known level changes) (hc : c ∈ changes)
    (hv : x.visits i = .seen file level' report)
    (hvisit : visit = .recorded file ∨
      ∃ e, outcome (c.record file level' report) x.scene = .error e) :
    Turns id level d found i x
      (x.moved i visit (after (c.record file level' report) x.scene)) ∧
    Sound s id known level target d
      (x.moved i visit (after (c.record file level' report) x.scene)) := by
  obtain ⟨m, hopened⟩ := h.opened
  obtain ⟨r, hr, hlevel⟩ := h.known
  obtain rfl := halike.session c hc
  obtain ⟨hkey, hsuccess, hown⟩ := h.seen i file level' report hv
  obtain ⟨session, hfind, -⟩ := SessionStore.result_eq_ok.mp hr
  obtain rfl : visit = .recorded file := hvisit.resolve_right fun ⟨e, hfailed⟩ => by
    obtain ⟨review, hdone⟩ : Succeeds x.scene (c.record file level' report) :=
      Service.succeeds_record rfl hfind
    exact absurd (hdone.symm.trans hfailed) (by simp)
  let l : Look := ⟨c.session, file, level', report⟩
  have hchanges : l.changes c.session = true := by simp [Look.changes, l, hsuccess]
  have hresult : (after (c.record file level' report) x.scene).sessions.result c.session =
      .ok (some (l.apply c.session r)) := Look.result_run (l := l) (p := x.scene.workplace) hr
  have hrecorded := hopened.record c.session file level' report
  have hcontents := hrecorded.mirrors.contents.trans hopened.mirrors.contents.symm
  refine ⟨.records hv hcontents fun other => ?_, h.moved ⟨m, hrecorded⟩ ⟨_, hresult, ?_⟩
    (fun other text hother => ⟨text, (text?_congr hcontents).trans hother⟩) (by simp) (by simp)
    fun other hother => Visit.recorded.inj hother ▸ hkey⟩
  · rw [issues_of_result hresult, Look.issuesOf_apply fun _ => hown, issues_of_result hr, hchanges]
    simp [l, eq_comm]
  · rw [Look.apply, hchanges, if_pos rfl]
    exact hlevel

/-- **A step.** Writing changes the text of one file, ruff looks at the text that the file has, and
editing the review puts what ruff told in the place of what the review said of the file. -/
theorem step (halike : CodeChange.Alike id known level changes) (hof : OfText found)
    (hreports : Reports s d found x (x.visits i)) :
    Turns id level d found i x (x.step s changes i) ∧
    Sound s id known level target d (x.step s changes i) := by
  have hmoves := moves_step s changes i x
  generalize x.step s changes i = y at hmoves
  cases hmoves with
  | none => exact ⟨.none, h⟩
  | writes hc hv hwrites => exact h.writes halike hc hv hwrites
  | refuses hc hv hscene => exact h.refuses halike hc hv hscene
  | looks hv => exact h.looks hof hreports hv
  | records hc hv hvisit => exact h.records halike hc hv hvisit

end Sound

/-! ### Runs -/

theorem run_concat (order : List Nat) (i : Nat) (x : Desk) :
    x.run s changes (order ++ [i]) = (x.run s changes order).step s changes i := by
  simp [run, List.foldl_append]

/-- Whenever ruff is run in some order of steps, it reports on the text that the file has. -/
def ReportsIn (s : Service) (changes : List CodeChange) (d : Place)
    (found : String → String → Report) : List Nat → Desk → Prop
  | [], _ => True
  | i :: order, x =>
    Reports s d found x (x.visits i) ∧ ReportsIn s changes d found order (x.step s changes i)

theorem reportsIn_concat {order : List Nat} : ReportsIn s changes d found (order ++ [i]) x ↔
    ReportsIn s changes d found order x ∧
      Reports s d found (x.run s changes order) ((x.run s changes order).visits i) := by
  induction order generalizing x with
  | nil => simp [ReportsIn, run]
  | cons j order ih =>
    rw [List.cons_append, ReportsIn, ReportsIn, ih, and_assoc]
    rfl

instance : ∀ order x, Decidable (ReportsIn s changes d found order x)
  | [], _ => inferInstanceAs (Decidable True)
  | _ :: order, _ =>
    have := instDecidableReportsIn order
    inferInstanceAs (Decidable (_ ∧ _))

/-- A request looked at a file after some steps, edited what the review says of it after some more,
and no other request has edited that since. -/
structure EditedLast (s : Service) (changes : List CodeChange) (x : Desk) (file : String)
    (early : List Nat) (i : Nat) (middle late : List Nat) : Prop where
  looks : ∃ root level, (x.run s changes early).visits i = .written root file level
  edits : ∃ level report,
    (x.run s changes (early ++ i :: middle)).visits i = .seen file level report
  last : ∀ j, (x.run s changes (early ++ i :: middle ++ i :: late)).visits j = .recorded file →
    j = i ∨ (x.run s changes (early ++ i :: middle)).visits j = .recorded file

/-- What the review says of a file is changed by the requests that edit it only. -/
theorem Turns.edits_or {y : Desk} (h : Turns id level d found i x y) (file : String) :
    (∃ level' report, x.visits i = .seen file level' report ∧ y.issues id file = report.issues ∧
      ∀ j, y.visits j = .recorded file → j = i ∨ x.visits j = .recorded file) ∨
    ((∀ j, y.visits j = .recorded file → x.visits j = .recorded file) ∧
      y.issues id file = x.issues id file) := by
  have hkept {visit : Visit} {scene : Scene} (hvisit : visit ≠ .recorded file) (j : Nat)
      (hj : (x.moved i visit scene).visits j = .recorded file) : x.visits j = .recorded file := by
    rcases visits_moved.mp hj with ⟨-, h⟩ | ⟨-, h⟩
    · exact absurd h hvisit
    · exact h
  cases h with
  | none => exact .inr ⟨fun _ hj => hj, rfl⟩
  | writes _ _ _ hsessions => exact .inr ⟨hkept (by simp), issues_congr hsessions⟩
  | refuses _ _ hsessions => exact .inr ⟨hkept (by simp), issues_congr hsessions⟩
  | looks _ _ _ hsessions => exact .inr ⟨hkept (by simp), issues_congr hsessions⟩
  | @records other level' report _ hv _ hissues =>
    by_cases hfile : file = other
    · subst hfile
      refine .inl ⟨level', report, hv, by rw [hissues, if_pos rfl], fun j hj => ?_⟩
      rcases visits_moved.mp hj with ⟨rfl, -⟩ | ⟨-, hj⟩
      · exact .inl rfl
      · exact .inr hj
    · refine .inr ⟨hkept fun h => hfile (Visit.recorded.inj h).symm, ?_⟩
      rw [hissues, if_neg hfile]

/-- What the review says of a file is what ruff tells of its text. -/
def Current (id : String) (level : Level) (d : Place) (found : String → String → Report)
    (file : String) (x : Desk) : Prop :=
  ∃ text, x.text? d file = some text ∧
    x.issues id file = ((found file text).filterFor level).issues

/-- What ruff told of a file, or is yet to be told, is about the text that the file has. -/
structure Fresh (id : String) (level : Level) (d : Place) (found : String → String → Report)
    (file : String) (x : Desk) : Prop where
  seen : ∀ i level' report, x.visits i = .seen file level' report →
    ∃ text, x.text? d file = some text ∧ report = (found file text).filterFor level
  current : (∃ i, x.visits i = .recorded file) → (∀ i, ¬ (x.visits i).Holds file) →
    Current id level d found file x

/-- At most one request for a file is worked on. -/
def Apart (file : String) (x : Desk) : Prop :=
  ∀ i j, (x.visits i).Holds file → (x.visits j).Holds file → i = j

theorem not_holds_of_moved (hi : ¬ (x.visits i).Holds file)
    (h : ∀ j, ¬ ((x.moved i visit scene).visits j).Holds file) (j : Nat) :
    ¬ (x.visits j).Holds file := by
  by_cases hj : j = i
  · exact hj ▸ hi
  · have hsame : (x.moved i visit scene).visits j = x.visits j := visits_moved.mpr (.inr ⟨hj, rfl⟩)
    exact hsame ▸ h j

theorem Sound.isKey (h : Sound s id known level target d x)
    (hj : (x.visits j).Holds file ∨ x.visits j = .recorded file) : Path.IsKey file := by
  rcases hj with hholds | hj
  · rcases Visit.holds_cases hholds with ⟨root, level', hj⟩ | ⟨level', report, hj⟩
    · exact (h.written j root file level' hj).2.1
    · exact (h.seen j file level' report hj).1
  · exact h.recorded j file hj

/-- A step that leaves the text of a file and what the review says of it. -/
theorem Fresh.moved (h : Fresh id level d found file x) (hi : ¬ (x.visits i).Holds file)
    (hvisit : ∀ level' report, visit ≠ .seen file level' report)
    (hrecorded : visit ≠ .recorded file)
    (htext : (∃ j, (x.visits j).Holds file ∨ x.visits j = .recorded file) →
      (x.moved i visit scene).text? d file = x.text? d file)
    (hissues : (x.moved i visit scene).issues id file = x.issues id file) :
    Fresh id level d found file (x.moved i visit scene) where
  seen j level' report hj := by
    rcases visits_moved.mp hj with ⟨-, hsame⟩ | ⟨-, hj⟩
    · exact absurd hsame (hvisit level' report)
    · rw [htext ⟨j, .inl (by simp [hj])⟩]
      exact h.seen j level' report hj
  current := by
    rintro ⟨j, hj⟩ hnone
    rcases visits_moved.mp hj with ⟨-, hsame⟩ | ⟨-, hj⟩
    · exact absurd hsame hrecorded
    · unfold Current
      rw [htext ⟨j, .inr hj⟩, hissues]
      exact h.current ⟨j, hj⟩ (not_holds_of_moved hi hnone)

/-- As long as at most one request for a file is worked on, what is told of the file is about the
text that it has. -/
theorem Fresh.turns {y : Desk} (h : Fresh id level d found file x)
    (hsound : Sound s id known level target d x) (hturns : Turns id level d found i x y)
    (hapart : Apart file y) : Fresh id level d found file y := by
  cases hturns with
  | none => exact h
  | @writes root other level' scene hv hkey htext hsessions =>
    by_cases hfile : other = file
    · subst hfile
      have hholds : ((x.moved i (.written root other level') scene).visits i).Holds other := by
        simp
      refine ⟨fun j level' report hj => ?_, fun _ hnone => absurd hholds (hnone i)⟩
      obtain rfl := hapart j i (by simp [hj]) hholds
      rcases visits_moved.mp hj with ⟨-, hsame⟩ | ⟨hne, -⟩
      · exact absurd hsame (by simp)
      · exact absurd rfl hne
    · exact h.moved (by simp [hv]) (by simp) (by simp)
        (fun ⟨j, hj⟩ => htext file (hsound.isKey hj) (Ne.symm hfile)) (issues_congr hsessions)
  | refuses hv hcontents hsessions =>
    exact h.moved (by simp [hv]) (by simp) (by simp) (fun _ => text?_congr hcontents)
      (issues_congr hsessions)
  | @looks root other text scene hv htext hcontents hsessions =>
    by_cases hfile : other = file
    · subst hfile
      refine ⟨fun j level' report hj => ?_, fun _ hnone => absurd ?_ (hnone i)⟩
      · rw [text?_congr hcontents]
        rcases visits_moved.mp hj with ⟨-, hsame⟩ | ⟨-, hj⟩
        · exact ⟨text, htext, (Visit.seen.inj hsame).2.2.symm⟩
        · exact h.seen j level' report hj
      · simp
    · exact h.moved (by simp [hv, hfile]) (by simp [hfile]) (by simp)
        (fun _ => text?_congr hcontents) (issues_congr hsessions)
  | @records other level' report scene hv hcontents hissues =>
    by_cases hfile : other = file
    · subst hfile
      refine ⟨fun j level' report hj => ?_, fun _ _ => ?_⟩
      · rw [text?_congr hcontents]
        rcases visits_moved.mp hj with ⟨-, hsame⟩ | ⟨-, hj⟩
        · exact absurd hsame (by simp)
        · exact h.seen j level' report hj
      · obtain ⟨text, htext, rfl⟩ := h.seen i level' report hv
        exact ⟨text, (text?_congr hcontents).trans htext, by rw [hissues, if_pos rfl]⟩
    · exact h.moved (by simp [hv, hfile]) (by simp) (by simp [hfile])
        (fun _ => text?_congr hcontents) (by rw [hissues, if_neg (Ne.symm hfile)])

theorem visits_step_of_ne (h : j ≠ i) : (x.step s changes i).visits j = x.visits j := by
  have hmoves := moves_step s changes i x
  generalize x.step s changes i = y at hmoves
  cases hmoves with
  | none => rfl
  | writes | refuses | looks | records => exact visits_moved.mpr (.inr ⟨h, rfl⟩)

/-- Requests that take no step do not come further. -/
theorem visits_run_of_not_mem (s : Service) (changes : List CodeChange) (x : Desk)
    {order : List Nat} (h : i ∉ order) :
    (x.run s changes order).visits i = x.visits i := by
  induction order using List.reverseRecOn with
  | nil => rfl
  | append_singleton order j ih =>
    rw [List.mem_append, not_or, List.mem_singleton] at h
    rw [run_concat, visits_step_of_ne h.2, ih h.1]

theorem apart_run {order : List Nat}
    (h : ∀ i ∈ order, ∀ j ∈ order, (((start scene).run s changes order).visits i).Holds file →
      (((start scene).run s changes order).visits j).Holds file → i = j) :
    Apart file ((start scene).run s changes order) := by
  have hmem {i : Nat} (hi : (((start scene).run s changes order).visits i).Holds file) :
      i ∈ order := by
    by_contra hnone
    rw [visits_run_of_not_mem _ _ _ hnone] at hi
    exact Visit.not_holds_waiting hi
  exact fun i j hi hj => h i (hmem hi) j (hmem hj) hi hj

/-- Before any request has begun, nothing is to be told. -/
theorem Sound.initial {x : Scene} {r : Review} (hopened : Opened s id target d m x)
    (hknown : x.sessions.result id = .ok (some r)) : Sound s id r level target d (.start x) where
  opened := ⟨m, hopened⟩
  known := ⟨r, hknown, rfl⟩
  written := by simp [Desk.start]
  seen := by simp [Desk.start]
  recorded := by simp [Desk.start]

namespace Sound

variable {order : List Nat} (h : Sound s id known level target d (.start scene))
  (halike : CodeChange.Alike id known level changes) (hof : OfText found)

include h halike hof

theorem run (hreports : ReportsIn s changes d found order (.start scene)) :
    Sound s id known level target d ((start scene).run s changes order) := by
  induction order using List.reverseRecOn with
  | nil => exact h
  | append_singleton order i ih =>
    rw [run_concat]
    exact ((ih (reportsIn_concat.mp hreports).1).step halike hof (reportsIn_concat.mp hreports).2).2

theorem turns {i : Nat} (hreports : ReportsIn s changes d found (order ++ [i]) (.start scene)) :
    Turns id level d found i ((start scene).run s changes order)
      ((start scene).run s changes (order ++ [i])) := by
  rw [run_concat]
  exact ((h.run halike hof (reportsIn_concat.mp hreports).1).step halike hof
    (reportsIn_concat.mp hreports).2).1

/-- What a request is about to tell the review is what ruff reported on the text that the file had
when it was run. -/
theorem exists_look (hreports : ReportsIn s changes d found order (.start scene))
    {level' : Level} {report : Report}
    (hseen : ((start scene).run s changes order).visits i = .seen file level' report) :
    ∃ early middle root text, order = early ++ i :: middle ∧
      ((start scene).run s changes early).visits i = .written root file level ∧
      ((start scene).run s changes early).text? d file = some text ∧
      report = (found file text).filterFor level := by
  induction order using List.reverseRecOn with
  | nil => exact absurd hseen (by simp [Desk.run, start])
  | append_singleton order j ih =>
    have hturns := h.turns halike hof hreports
    generalize hy : (start scene).run s changes (order ++ [j]) = y at hturns hseen
    have hbefore (hold : ((start scene).run s changes order).visits i = .seen file level' report) :
        ∃ early middle root text, order ++ [j] = early ++ i :: middle ∧
          ((start scene).run s changes early).visits i = .written root file level ∧
          ((start scene).run s changes early).text? d file = some text ∧
          report = (found file text).filterFor level := by
      obtain ⟨early, middle, root, text, rfl, hlook⟩ := ih (reportsIn_concat.mp hreports).1 hold
      exact ⟨early, middle ++ [j], root, text, by simp, hlook⟩
    cases hturns with
    | none => exact hbefore hseen
    | writes | refuses | records =>
      rcases visits_moved.mp hseen with ⟨-, hvisit⟩ | ⟨-, hold⟩
      · exact absurd hvisit (by simp)
      · exact hbefore hold
    | @looks root other text _ hv htext =>
      rcases visits_moved.mp hseen with ⟨rfl, hvisit⟩ | ⟨-, hold⟩
      · obtain ⟨rfl, rfl, rfl⟩ := Visit.seen.inj hvisit
        exact ⟨order, [], root, text, by simp, hv, htext, rfl⟩
      · exact hbefore hold

/-- **The last edit decides.** What the review says of a file is what ruff reported for the request
that edited it last, on the text that the file had then. -/
theorem exists_last (hreports : ReportsIn s changes d found order (.start scene)) (file : String) :
    ((∀ i, ((start scene).run s changes order).visits i ≠ .recorded file) ∧
      ((start scene).run s changes order).issues id file = (start scene).issues id file) ∨
    ∃ early i middle late text, order = early ++ i :: middle ++ i :: late ∧
      EditedLast s changes (.start scene) file early i middle late ∧
      ((start scene).run s changes early).text? d file = some text ∧
      ((start scene).run s changes order).issues id file =
        ((found file text).filterFor level).issues := by
  induction order using List.reverseRecOn with
  | nil => exact .inl ⟨by simp [Desk.run, start], rfl⟩
  | append_singleton order i ih =>
    rcases (h.turns halike hof hreports).edits_or file with
      ⟨level', report, hseen, hissues, hlast⟩ | ⟨hkept, hissues⟩
    · obtain ⟨early, middle, root, text, rfl, hlook, htext, rfl⟩ :=
        h.exists_look halike hof (reportsIn_concat.mp hreports).1 hseen
      exact .inr ⟨early, i, middle, [], text, rfl, ⟨⟨root, level, hlook⟩, ⟨_, _, hseen⟩, hlast⟩,
        htext, hissues⟩
    · rcases ih (reportsIn_concat.mp hreports).1 with ⟨hnone, hold⟩ |
        ⟨early, j, middle, late, text, rfl, hedited, htext, hold⟩
      · exact .inl ⟨fun j hj => hnone j (hkept j hj), hissues.trans hold⟩
      · refine .inr ⟨early, j, middle, late ++ [i], text, by simp, ⟨hedited.looks, hedited.edits,
          fun k hk => hedited.last k (hkept k ?_)⟩, htext, hissues.trans hold⟩
        rw [← hk]
        simp

theorem fresh (hreports : ReportsIn s changes d found order (.start scene)) {file : String}
    (hapart : ∀ before, before <+: order → Apart file ((start scene).run s changes before)) :
    Fresh id level d found file ((start scene).run s changes order) := by
  induction order using List.reverseRecOn with
  | nil => exact ⟨by simp [Desk.run, start], by simp [Desk.run, start]⟩
  | append_singleton order i ih =>
    refine (ih (reportsIn_concat.mp hreports).1 fun before hbefore => ?_).turns
      (h.run halike hof (reportsIn_concat.mp hreports).1) (h.turns halike hof hreports)
      (hapart _ (List.prefix_refl _))
    exact hapart before (hbefore.trans (List.prefix_append _ _))

end Sound

end Desk

/-- **The last edit decides.** Whatever order the steps of requests are taken in, the review of
their session says of each file what ruff reported for the request that edited the review last, on
the text that the file had when ruff was run for it, and what it said before if there was no such
request. That is about the text on the disk once every request for the file is done, if no two of
them were worked on at a time; requests for other files make no difference. -/
theorem last_edit_decides (s : Service) (changes : List CodeChange) (x : Scene) (id : String)
    (target : Path) (d : Place) (m : FileMap) (r : Review) (level : Level)
    (found : String → String → Report) (order : List Nat) (hopened : Opened s id target d m x)
    (hknown : x.sessions.result id = .ok (some r))
    (halike : CodeChange.Alike id r level changes) (hof : OfText found)
    (hreports : Desk.ReportsIn s changes d found order (.start x)) :
    let y := (Desk.start x).run s changes order
    ∃ r', y.scene.sessions.result id = .ok (some r') ∧ ∀ file,
      (((∀ i, y.visits i ≠ .recorded file) ∧ r'.issuesOf file = r.issuesOf file) ∨
        ∃ early i middle late text, order = early ++ i :: middle ++ i :: late ∧
          Desk.EditedLast s changes (.start x) file early i middle late ∧
          ((Desk.start x).run s changes early).text? d file = some text ∧
          r'.issuesOf file = ((found file text).filterFor level).issues) ∧
      ((∀ before, before <+: order → ((Desk.start x).run s changes before).Apart file) →
        (∃ i, y.visits i = .recorded file) → (∀ i, ¬ (y.visits i).Holds file) →
        ∃ text, y.text? d file = some text ∧
          r'.issuesOf file = ((found file text).filterFor level).issues) := by
  intro y
  have hstart : Desk.Sound s id r level target d (.start x) := .initial hopened hknown
  obtain ⟨r', hr', -⟩ := (hstart.run halike hof hreports).known
  refine ⟨r', hr', fun file => ⟨?_, fun hapart hrecorded hnone => ?_⟩⟩
  · have hlast := hstart.exists_last halike hof hreports file
    rwa [Desk.issues_of_result hr', Desk.issues_of_result (x := .start x) hknown] at hlast
  · have hcurrent := (hstart.fresh halike hof hreports hapart).current hrecorded hnone
    rwa [Desk.Current, Desk.issues_of_result hr'] at hcurrent

/-- Ruff, which finds something in every text but one. -/
def ruffAt (file : Place) (t : FileTree) (_ : Call) : Except FileError Ending :=
  let stdout := match t.lookup? file with
    | some (.file text _) => if text = "good".toUTF8 then "[]" else
      "[\x7b\"filename\": \"a.py\", \"location\": \x7b\"row\": 1\x7d, \"code\": \"W1\", " ++
        "\"message\": \"found\"\x7d]"
    | _ => "[]"
  .ok ⟨stdout.toUTF8, .empty, some 0, 0⟩

/-- What it reports on a text. -/
def foundIn (file text : String) : Report :=
  .ok (if text = "good" then [] else [issueIn file "W1"])

def linting : Service :=
  { quietService with pipeline :=
    ⟨⟨.standard, ⟨"/c"⟩, 1⟩, ⟨[], ⟨"/tmp"⟩, [], [⟨"/bin"⟩], ruffAt ["s", "p", "a.py"]⟩⟩ }

/-- A session with an empty project and a review. -/
def lintedScene : Scene :=
  ⟨⟨⟨[(["bin"], .directory), (["bin", "ruff"], .file .empty 0o755), (["s"], .directory),
      (["s", "p"], .directory)]⟩, [], 0⟩,
    ⟨⟨"/s"⟩, "", [], 1, [⟨"one", ⟨"/s/p"⟩, none, some (.blank .intermediate)⟩]⟩⟩

/-- Two new texts of one file, spelled in two ways. -/
def twoTexts : List CodeChange :=
  [⟨"bad", "a.py", "one", none⟩, ⟨"good", "./a.py", "one", none⟩]

theorem opened_lintedScene : Opened linting "one" ⟨"/s/p"⟩ ["s", "p"]
    (lintedScene.world.files.contents ["s", "p"]) lintedScene := by
  have hentries : lintedScene.world.files.entries =
    [(["bin"], .directory), (["bin", "ruff"], .file .empty 0o755), (["s"], .directory),
      (["s", "p"], .directory)] := rfl
  have hstorable : Storable "bin" ∧ Storable "ruff" ∧ Storable "s" ∧ Storable "p" := by decide
  have hlink : ∀ place s, place ≠ [] → lintedScene.world.files.lookup? place ≠ some (.link s) := by
    intro place s hne hs
    have hmem := mem_of_lookup? hne hs
    rw [hentries] at hmem
    simp at hmem
  refine ⟨by decide, ⟨⟨⟨.of_entries (by decide) ?_ ?_, rfl⟩, by decide +kernel, rfl, ?_⟩, ?_, rfl⟩⟩
  · have hdirectories : ∀ place ∈ [[], ["bin"], ["s"]],
        lintedScene.world.files.hasDirectory place = true := by decide
    rw [hentries]
    simpa [hdirectories] using hstorable
  · rw [hentries]
    simp
  · intro place hplace s hs
    exact hlink place s (by rintro rfl; simp at hplace) hs
  · refine ⟨["c"], ?_, by decide, fun name hname s hs => hlink _ s (by simp) hs⟩
    have hnames : ["c"].filterMap Path.component? = ["c"].map .name := by decide
    have hlead : Leads lintedScene.world.files nowhere [] ["c"] ([] ++ ["c"]) :=
      leads_of_names hnames fun more hmore hne target hs => hlink _ target (by simpa using hne) hs
    exact hlead
theorem alike_twoTexts :
    CodeChange.Alike "one" (.blank .intermediate) .intermediate twoTexts :=
  ⟨by decide, by decide⟩

theorem ofText_foundIn : OfText foundIn := by
  refine ⟨fun _ _ => rfl, fun file text i hi => ?_⟩
  simp only [foundIn, Report.ok] at hi
  split_ifs at hi
  · simp at hi
  · rw [List.mem_singleton.mp hi]
    rfl

/-- The requests follow one another, and what the review tells is what ruff finds in the second
text. -/
theorem last_edit_decides_in_turn :
    lintedScene.sessions.result "one" = .ok (some (.blank .intermediate)) ∧
    Desk.ReportsIn linting twoTexts ["s", "p"] foundIn [0, 0, 0, 1, 1, 1] (.start lintedScene) ∧
    ∃ y r', (Desk.start lintedScene).run linting twoTexts [0, 0, 0, 1, 1, 1] = y ∧
      y.scene.sessions.result "one" = .ok (some r') ∧
      y.text? ["s", "p"] "a.py" = some "good" ∧ r'.issuesOf "a.py" = [] := by
  have hreports : Desk.ReportsIn linting twoTexts ["s", "p"] foundIn [0, 0, 0, 1, 1, 1]
      (.start lintedScene) := by decide +kernel
  obtain ⟨r', hr', hfiles⟩ := last_edit_decides linting twoTexts lintedScene "one" ⟨"/s/p"⟩
    ["s", "p"] _ (.blank .intermediate) .intermediate foundIn [0, 0, 0, 1, 1, 1] opened_lintedScene
    rfl alike_twoTexts ofText_foundIn hreports
  have hone : ∀ before ∈ [0, 0, 0, 1, 1, 1].inits,
      ¬ ((((Desk.start lintedScene).run linting twoTexts before).visits 0).Holds "a.py" ∧
        (((Desk.start lintedScene).run linting twoTexts before).visits 1).Holds "a.py") := by
    decide +kernel
  have hapart : ∀ before, before <+: [0, 0, 0, 1, 1, 1] →
      ((Desk.start lintedScene).run linting twoTexts before).Apart "a.py" := by
    intro before hbefore
    have htwo {k : Nat} (hk : k ∈ before) : k = 0 ∨ k = 1 := by simpa using hbefore.subset hk
    refine Desk.apart_run fun i hi j hj hholds hholds' => ?_
    rcases htwo hi with rfl | rfl <;> rcases htwo hj with rfl | rfl
    · rfl
    · exact absurd ⟨hholds, hholds'⟩ (hone before ((List.mem_inits _ _).mpr hbefore))
    · exact absurd ⟨hholds', hholds⟩ (hone before ((List.mem_inits _ _).mpr hbefore))
    · rfl
  have hsettled := (hfiles "a.py").2 hapart
  have hwaiting (i : Nat) (hi : i ∉ [0, 0, 0, 1, 1, 1]) :=
    Desk.visits_run_of_not_mem linting twoTexts (.start lintedScene) hi
  obtain ⟨hfirst, hsecond, hgood⟩ :
      ((Desk.start lintedScene).run linting twoTexts [0, 0, 0, 1, 1, 1]).visits 0 =
        .recorded "a.py" ∧
      ((Desk.start lintedScene).run linting twoTexts [0, 0, 0, 1, 1, 1]).visits 1 =
        .recorded "a.py" ∧
      ((Desk.start lintedScene).run linting twoTexts [0, 0, 0, 1, 1, 1]).text? ["s", "p"] "a.py" =
        some "good" := by
    decide +kernel
  refine ⟨rfl, hreports, _, r', rfl, hr', hgood, ?_⟩
  generalize (Desk.start lintedScene).run linting twoTexts [0, 0, 0, 1, 1, 1] = y
    at hsettled hwaiting hfirst hsecond hgood
  have hnone (i : Nat) : ¬ (y.visits i).Holds "a.py" := by
    by_cases hi : i ∈ [0, 0, 0, 1, 1, 1]
    · have htwo : i = 0 ∨ i = 1 := by simpa using hi
      rcases htwo with rfl | rfl
      · simp [hfirst]
      · simp [hsecond]
    · rw [hwaiting i hi]
      exact Visit.not_holds_waiting
  obtain ⟨text, htext, hissues⟩ := hsettled ⟨0, hfirst⟩ hnone
  obtain rfl : "good" = text := Option.some.inj (hgood.symm.trans htext)
  rw [hissues]
  decide

/-- **Overlapping requests leave a stale review.** The first request writes a text, and ruff is run
on it; the second one goes all its way with another text before the first one edits the review. At
the end the review tells what ruff found in the first text, and the disk has the second. -/
theorem overlap_leaves_stale :
    let y := (Desk.start lintedScene).run linting twoTexts [0, 0, 1, 1, 1, 0]
    Opened linting "one" ⟨"/s/p"⟩ ["s", "p"] (lintedScene.world.files.contents ["s", "p"])
      lintedScene ∧
    lintedScene.sessions.result "one" = .ok (some (.blank .intermediate)) ∧
    CodeChange.Alike "one" (.blank .intermediate) .intermediate twoTexts ∧
    (∀ c ∈ twoTexts, Text.isAllBlank c.code = false) ∧ OfText foundIn ∧
    Desk.ReportsIn linting twoTexts ["s", "p"] foundIn [0, 0, 1, 1, 1, 0] (.start lintedScene) ∧
    y.visits 0 = .recorded "a.py" ∧ y.visits 1 = .recorded "a.py" ∧
    y.text? ["s", "p"] "a.py" = some "good" ∧
    y.issues "one" "a.py" = [issueIn "a.py" "W1"] ∧
    y.issues "one" "a.py" ≠ (foundIn "a.py" "good").issues := by
  intro y
  have hissues : y.issues "one" "a.py" = [issueIn "a.py" "W1"] := by decide +kernel
  obtain ⟨hfirst, hsecond, htext⟩ : y.visits 0 = .recorded "a.py" ∧
      y.visits 1 = .recorded "a.py" ∧ y.text? ["s", "p"] "a.py" = some "good" := by
    decide +kernel
  refine ⟨opened_lintedScene, rfl, alike_twoTexts, by decide, ofText_foundIn, by decide +kernel,
    hfirst, hsecond, htext, hissues, ?_⟩
  rw [hissues]
  decide

end ReviewMentor

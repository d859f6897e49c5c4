import ReviewMentor.Proofs.Analysis.Apart
import ReviewMentor.Proofs.Service.Uploads

/-!
# Edits of projects

Two requests change a file of a project: one gives it a new text, the other replaces one of its
lines. On the map of the files of the project, each of them puts one entry. Where a request is
answered as it was meant, that is what it did to the files.
-/

namespace ReviewMentor

open FileTree Effect SessionStore

/-! ### Texts in maps -/

theorem toUTF8_of_fromUTF8? {bytes : ByteArray} {text : String}
    (h : String.fromUTF8? bytes = some text) : text.toUTF8 = bytes := by
  unfold String.fromUTF8? at h
  split at h
  · exact Option.some.inj h ▸ rfl
  · exact absurd h (by simp)

theorem fromUTF8?_toUTF8 (text : String) : String.fromUTF8? text.toUTF8 = some text :=
  dif_pos text.isValidUTF8

/-- The text of a file, if it holds one. -/
def FileMap.text? (m : FileMap) (names : List String) : Option String :=
  (m names).bind String.fromUTF8?

theorem FileMap.text?_eq_some {m : FileMap} {names : List String} {text : String} :
    m.text? names = some text ↔ m names = some text.toUTF8 := by
  unfold FileMap.text?
  constructor
  · intro h
    obtain ⟨bytes, hbytes, htext⟩ := Option.bind_eq_some_iff.mp h
    rw [hbytes, toUTF8_of_fromUTF8? htext]
  · intro h
    rw [h]
    exact fromUTF8?_toUTF8 text

/-! ### Edits -/

/-- What a request asks to be done to a file of a project. -/
inductive Edit where
  | change (c : CodeChange)
  | fix (o : FixOrder)

namespace Edit

def session : Edit → String
  | change c => c.session
  | fix o => o.session

def file : Edit → String
  | change c => c.file
  | fix o => o.file

/-- The text that a file gets. Blank code is not written, and a line is replaced in the text that
the file has; without a number no line is. -/
def text? (m : FileMap) : Edit → Option String
  | change c => if Text.isAllBlank c.code then none else some c.code
  | fix o => (m.text? (Path.mk o.file).goal).map fun old =>
    Text.replaceLine old (o.line.getD 0) o.fix

/-- The files of a project after an edit. -/
def applied (e : Edit) (m : FileMap) : FileMap :=
  match e.text? m with
  | some text => m.put (Path.mk e.file).goal text.toUTF8
  | none => m

/-- An edit changes no entry but that of its file. -/
theorem applied_of_ne (e : Edit) (m : FileMap) {names : List String}
    (h : names ≠ (Path.mk e.file).goal) : e.applied m names = m names := by
  unfold applied
  rcases e.text? m with _ | text
  · rfl
  · exact FileMap.put_of_ne h

end Edit

/-! ### Files of a session -/

/-- A text that is a path into a directory. -/
structure Path.Inner (file : String) : Prop where
  nonempty : file ≠ ""
  relative : (Path.mk file).isAbsolute = false
  noUp : .up ∉ (Path.mk file).components

/-- What spells names leads into a directory. -/
theorem Path.Spells.inner {file : String} {names : List String} (h : Path.Spells file names) :
    Path.Inner file := by
  refine ⟨?_, h.relative, fun hup => ?_⟩
  · rintro rfl
    exact h.ne_nil (List.map_eq_nil_iff.mp (h.steps.symm.trans (by rw [Path.parts_empty]; rfl)))
  · have hmem : Component.up ∈ (Path.mk file).steps := by
      rw [← filter_components]
      exact List.mem_filter.mpr ⟨hup, by decide⟩
    rw [Path.steps, h.steps] at hmem
    simp at hmem

theorem Path.Inner.staysBelow {file : String} (h : Path.Inner file) :
    Zip.staysBelow 0 ((Path.mk file).parts.filterMap Path.component?) = true :=
  staysBelow_steps (up_not_mem_steps h.noUp)

namespace SessionStore

variable {store : SessionStore} {id file : String} {target q : Path}

theorem directory_eq_ok :
    store.directory id = .ok target ↔ ∃ x, store.find? id = some x ∧ x.directory = target := by
  unfold SessionStore.directory find
  rcases store.find? id with _ | x <;> simp [Except.map]

/-- A file is resolved in the directory of its session. -/
theorem resolve_of_directory (h : store.directory id = .ok target) :
    store.resolve id file = .ok q ↔ Path.Inner file ∧ q = target.child file := by
  obtain ⟨x, hx, rfl⟩ := directory_eq_ok.mp h
  rw [resolve_eq_ok]
  constructor
  · rintro ⟨y, hy, hempty, hrel, hup, rfl⟩
    obtain rfl : x = y := Option.some.inj (hx.symm.trans hy)
    exact ⟨⟨hempty, hrel, hup⟩, rfl⟩
  · rintro ⟨⟨hempty, hrel, hup⟩, rfl⟩
    exact ⟨x, hx, hempty, hrel, hup, rfl⟩

/-- A review does not move its session. -/
theorem directory_setResult (h : store.directory id = .ok target) (other : String) (r : Review) :
    (store.setResult other r).directory id = .ok target := by
  obtain ⟨x, hx, rfl⟩ := directory_eq_ok.mp h
  rw [directory_eq_ok, find?_setResult, hx]
  refine ⟨_, rfl, ?_⟩
  dsimp only
  split <;> rfl

end SessionStore

/-! ### Projects as maps -/

/-- A project whose files are those of a map, and from which generated files lie apart. -/
structure Mirrors (s : Service) (target : Path) (d : Place) (m : FileMap) (t : FileTree) :
    Prop where
  project : Project s.here target d t
  apart : s.pipeline.invoker.Apart s.here d t
  contents : t.contents d = m

namespace Mirrors

variable {s : Service} {target root : Path} {d : Place} {m : FileMap} {t u : FileTree}
  {file text code content : String} {level : Level}

theorem ensureConfig (a : Analyzer) (t : FileTree) (h : Mirrors s target d m t) :
    Mirrors s target d m
      (after (s.pipeline.invoker.ensureConfig s.pipeline.machine.cwd a) t) := by
  obtain ⟨hproject, hapart, hcontents⟩ :=
    s.pipeline.invoker.sparesProject_ensureConfig s.here target d a t h.project h.apart
  exact ⟨hproject, hapart, hcontents.trans h.contents⟩

theorem makeDirectories (h : Mirrors s target d m t) (p : Path) :
    Mirrors s target d m (t.makeDirectories s.here p).1 := by
  obtain ⟨hproject, hapart, hcontents⟩ :=
    s.pipeline.invoker.sparesProject_makeDirectories p t h.project h.apart
  exact ⟨hproject, hapart, hcontents.trans h.contents⟩

section Inner

variable (h : Mirrors s target d m t) (hfile : Path.Inner file)

include h hfile

theorem writeText (hwrite : t.writeText s.here (target.child file) text = .ok u) :
    Mirrors s target d (m.put (Path.mk file).goal text.toUTF8) u :=
  ⟨h.project.of_writeBytes hwrite, h.apart.of_sameLinks (sameLinks_writeBytes hwrite), by
    rw [← h.contents]
    exact contents_writeBytes h.project.lies hfile.relative hfile.staysBelow hwrite⟩

theorem writeCode (hdone : outcome (s.writeCode (target.child file) code) t = .ok ()) :
    Mirrors s target d (m.put (Path.mk file).goal code.toUTF8)
      (after (s.writeCode (target.child file) code) t) := by
  unfold Service.writeCode at hdone ⊢
  split at hdone
  · next parent _ =>
    obtain ⟨⟨⟩, hmade, hdone⟩ := bind_ok hdone
    rw [after_bind_ok hmade]
    exact (h.makeDirectories parent).writeText hfile (Disk.ok_of_change hdone)
  · exact h.writeText hfile (Disk.ok_of_change hdone)

theorem text?_of_readText (hread : t.readText s.here (target.child file) = .ok text) :
    m.text? (Path.mk file).goal = some text := by
  unfold readText at hread
  split at hread
  · exact absurd hread (by simp)
  next bytes hbytes =>
  split at hread
  · next hvalid =>
    obtain rfl := Except.ok.inj hread
    rw [FileMap.text?, ← h.contents,
      h.project.lies.contents_of_readBytes hfile.relative hfile.staysBelow hbytes]
    exact hvalid
  · exact absurd hread (by simp)

/-- A fix puts the text of the file with one line replaced, and answers it. -/
theorem fixing {order : FixOrder}
    (hdone : outcome (s.fixing (target.child file) order) t = .ok content) :
    (∃ old, m.text? (Path.mk file).goal = some old ∧
      content = Text.replaceLine old (order.line.getD 0) order.fix) ∧
    Mirrors s target d (m.put (Path.mk file).goal content.toUTF8)
      (after (s.fixing (target.child file) order) t) := by
  unfold Service.fixing at hdone ⊢
  rw [Disk.outcome_of] at hdone
  rw [Disk.after_of]
  split at hdone
  · next u new hfix =>
    obtain rfl := Except.ok.inj hdone
    obtain ⟨old, hread, hnew, ⟨rfl, rfl⟩ | hwrite⟩ := fixLine_ok hfix
    · have hold := h.text?_of_readText hfile hread
      refine ⟨⟨new, hold, hnew⟩, ?_⟩
      rwa [FileMap.put_eq_self (FileMap.text?_eq_some.mp hold)]
    · exact ⟨⟨old, h.text?_of_readText hfile hread, hnew⟩, h.writeText hfile hwrite⟩
  · exact absurd hdone (by simp)

end Inner

end Mirrors

/-- A session whose project is at a place and has the files of a map. -/
structure Opened (s : Service) (id : String) (target : Path) (d : Place) (m : FileMap) (x : Scene) :
    Prop where
  known : x.sessions.directory id = .ok target
  mirrors : Mirrors s target d m x.world.files

/-! ### Granted requests -/

/-- Work whose refusals are told as such. -/
abbrev Tells {α : Type} (w : Handling α) : Prop :=
  FailsOnly (fun refusal => refusal.response.status ≠ 200) w

namespace Handling

variable {α ε : Type} {x : Scene}

theorem outcome_given {result : Except Refusal α} {a : α} (h : result = .ok a) :
    outcome (ExceptT.mk (pure result) : Handling α) x = .ok a := h

theorem outcome_files : outcome files x = .ok x.world.files := rfl

theorem tells_given {result : Except Refusal α}
    (h : ∀ refusal, result = .error refusal → refusal.response.status ≠ 200) :
    Tells (ExceptT.mk (pure result) : Handling α) := fun _ refusal hfailed => h refusal hfailed

theorem ok_of_mapError {result : Except ε α} {account : ε → Refusal} {a : α}
    (h : result.mapError account = .ok a) : result = .ok a := by
  rcases result with e | b
  · exact absurd h (by simp [Except.mapError])
  · simpa [Except.mapError] using h

theorem error_of_mapError {result : Except ε α} {account : ε → Refusal} {refusal : Refusal}
    (h : result.mapError account = .error refusal) : ∃ e, account e = refusal := by
  rcases result with e | b
  · exact ⟨e, by simpa [Except.mapError] using h⟩
  · exact absurd h (by simp [Except.mapError])

theorem status_ofSession (e : SessionError) : (Refusal.ofSession e).response.status ≠ 200 := by
  rcases e with _ | _ | (_ | _ | _ | _) | _ <;>
    simp [Refusal.ofSession, Refusal.response, Refusal.told]

theorem tells_ask (f : SessionStore → Except SessionError α) : Tells (ask f) := by
  intro y refusal hfailed
  obtain ⟨e, rfl⟩ := error_of_mapError hfailed
  exact status_ofSession e

theorem tells_onSessions (w : SessionWork α) : Tells (onSessions w) := by
  intro y refusal hfailed
  obtain ⟨e, rfl⟩ := error_of_mapError hfailed
  exact status_ofSession e

theorem tells_onFiles {account : ε → Refusal} (h : ∀ e, (account e).response.status ≠ 200)
    (w : Disk ε α) : Tells (onFiles account w) := by
  intro y refusal hfailed
  obtain ⟨e, rfl⟩ := error_of_mapError hfailed
  exact h e

theorem tells_inWorld (w : StateM World α) : Tells (inWorld w) := .of_ok fun _ => ⟨_, rfl⟩

theorem tells_files : Tells files := .of_ok fun _ => ⟨_, rfl⟩

end Handling

namespace Service

variable {α : Type} {s : Service} {r : Http.Request} {k : ProjectRequest} {now : Timestamp}
  {x : Scene}

theorem status_body {refusal : Refusal} (h : s.body r = .error refusal) :
    refusal.response.status ≠ 200 := by
  unfold body at h
  split_ifs at h
  obtain rfl := Except.error.inj h
  decide

theorem status_readJson {read : Json.Decode α} {refusal : Refusal}
    (h : s.readJson read r = .error refusal) : refusal.response.status ≠ 200 := by
  rcases hjson : r.isJson with _ | _
  · simp only [readJson, hjson] at h
    obtain rfl := Except.error.inj h
    decide
  rcases hbody : s.body r with refusal' | data
  · simp only [readJson, hjson, hbody] at h
    obtain rfl := Except.error.inj h
    exact status_body hbody
  rcases hdecode : Json.decodeFront read data with (_ | _) | a <;>
    simp [readJson, hjson, hbody, hdecode, bind, Except.bind, pure, Except.pure, throw, throwThe,
      MonadExceptOf.throw] at h
  all_goals
    subst h
    decide

theorem status_valueAsked {name : String} {refusal : Refusal}
    (h : valueAsked r name = .error refusal) : refusal.response.status ≠ 200 := by
  unfold valueAsked at h
  split at h
  · exact absurd h (by simp)
  · obtain rfl := Except.error.inj h
    decide

theorem status_levelAsked {refusal : Refusal} (h : levelAsked r = .error refusal) :
    refusal.response.status ≠ 200 := by
  unfold levelAsked at h
  split at h
  · obtain rfl := Except.error.inj h
    decide
  · exact absurd h (by simp)
  · split at h
    · exact absurd h (by simp)
    · obtain rfl := Except.error.inj h
      decide

theorem tells_uploadLevel (asked : Option Level) (user : Option String) :
    Tells (s.uploadLevel asked user) := by
  have hprofile : ∀ e, (Refusal.ofProfile e).response.status ≠ 200 := by
    rintro (_ | _ | _) <;> simp [Refusal.ofProfile, Refusal.response, Refusal.told]
  rcases asked with _ | level
  · rcases user with _ | user
    · exact .pure _
    · exact .bind (Handling.tells_onFiles hprofile _) fun _ => .pure _
  · exact .pure _

theorem tells_takeIn (data : ByteArray) (user : Option String) (level : Level) :
    Tells (s.takeIn data user level) := by
  refine .bind (Handling.tells_onSessions _) fun session => .bind (Handling.tells_inWorld _)
    fun result => ?_
  split
  · exact .bind (FailsOnly.of_ok fun _ => ⟨_, rfl⟩) fun _ =>
      .bind (FailsOnly.of_ok fun _ => ⟨_, rfl⟩) fun _ => .throw (by decide)
  · exact .bind (Handling.tells_onSessions _) fun _ => .pure _

theorem tells_handle (s : Service) (k : ProjectRequest) (r : Http.Request) :
    Tells (k.handle s r) := by
  cases k with
  | upload =>
    unfold ProjectRequest.handle analyzeUpload
    refine .bind (Handling.tells_given fun _ => status_levelAsked) fun asked =>
      .bind (Handling.tells_given fun _ => status_body) fun data => ?_
    dsimp only
    split
    · exact .bind (.throw (by decide)) fun _ => .bind (tells_uploadLevel _ _) fun _ =>
        tells_takeIn _ _ _
    · exact .bind (tells_uploadLevel _ _) fun _ => tells_takeIn _ _ _
  | change =>
    unfold ProjectRequest.handle analyzeCode
    refine .bind (Handling.tells_given fun _ => status_readJson) fun change =>
      .bind (Handling.tells_ask _) fun known? => ?_
    dsimp only
    split
    · exact .pure _
    · exact .bind (Handling.tells_ask _) fun root => .bind (Handling.tells_ask _) fun path =>
        .bind Handling.tells_files fun files =>
        .bind (Handling.tells_onFiles (fun _ => by decide) _) fun _ =>
        .bind (Handling.tells_inWorld _) fun report =>
        .bind (Handling.tells_onSessions _) fun review => .pure _
  | fix =>
    have hfix : ∀ e, (Refusal.ofFix e).response.status ≠ 200 := by
      rintro (_ | _) <;> simp [Refusal.ofFix, Refusal.response, Refusal.told]
    exact .bind (Handling.tells_given fun _ => status_readJson) fun order =>
      .bind (Handling.tells_ask _) fun path => .bind (Handling.tells_onFiles hfix _) fun content =>
      .pure _
  | read =>
    unfold ProjectRequest.handle showFile
    refine .bind (Handling.tells_given fun _ => status_valueAsked) fun file =>
      .bind (Handling.tells_given fun _ => status_valueAsked) fun session =>
      .bind (Handling.tells_ask _) fun path =>
      .bind Handling.tells_files fun files => ?_
    dsimp only
    split
    · refine .bind (.throw (by simp [Refusal.response, Refusal.told])) fun _ => ?_
      split
      · exact .pure _
      · exact .throw (by decide)
    · split
      · exact .pure _
      · exact .throw (by decide)
  | collect =>
    unfold ProjectRequest.handle exportProject
    refine .bind (Handling.tells_given fun _ => status_readJson) fun session =>
      .bind (Handling.tells_ask _) fun directory => .bind Handling.tells_files fun files => ?_
    dsimp only
    split
    · exact .bind (.throw (by simp [Refusal.response, Refusal.told])) fun _ => .pure _
    · exact .pure _

/-- The response to what came of handling a request, with its body. -/
def reply : Except Refusal Http.Response → Http.Response
  | .ok response => response
  | .error refusal => refusal.response

theorem shown_of_method (hmethod : r.method = k.method) (result : Except Refusal Http.Response) :
    shown r result = reply result := by
  have hhead : r.method ≠ "HEAD" := by
    rw [hmethod]
    cases k <;> decide
  unfold shown
  rw [if_neg hhead]
  cases result <;> rfl

/-- A request with the method of its route is answered by what its handler says. -/
theorem answer_reply (s : Service) (now : Timestamp) (x : Scene) (hpath : r.path = k.path)
    (hmethod : r.method = k.method) :
    (s.answer now r x).2.status = (reply (outcome (k.handle s r) x)).status ∧
    (s.answer now r x).2.body = (reply (outcome (k.handle s r) x)).body := by
  rw [(s.answer_of_method now hpath hmethod x).2, shown_of_method hmethod]
  exact ⟨rfl, rfl⟩

/-- A request that is answered as it was meant was handled as it was meant. -/
theorem answer_granted (hpath : r.path = k.path) (hmethod : r.method = k.method)
    (hgranted : (s.answer now r x).2.status = 200) :
    ∃ response, outcome (k.handle s r) x = .ok response ∧
      (s.answer now r x).1 = after (k.handle s r) x ∧
      (s.answer now r x).2.body = response.body := by
  obtain ⟨hstatus, hbody⟩ := s.answer_reply now x hpath hmethod
  have hafter := (s.answer_of_method now hpath hmethod x).1
  rcases houtcome : outcome (k.handle s r) x with refusal | response <;>
    rw [houtcome] at hstatus hbody
  · exact absurd (hstatus.symm.trans hgranted) (tells_handle s k r x refusal houtcome)
  · exact ⟨response, rfl, hafter, hbody⟩

end Service

/-! ### What edits leave -/

namespace Opened

variable {s : Service} {id : String} {target : Path} {d : Place} {m : FileMap} {x : Scene}
  {r : Http.Request} {response : Http.Response}

/-- Recording a new look leaves the project of a session. -/
theorem record (h : Opened s id target d m x) (session file : String) (level : Level)
    (report : Report) : Opened s id target d m
      (after (Handling.onSessions (Service.record session file level report)) x) := by
  rw [Handling.after_onSessions, Service.after_record]
  split
  · exact ⟨directory_setResult h.known _ _, h.mirrors⟩
  · exact h

/-- Looking at a file again leaves the project of a session. -/
theorem reanalyze (h : Opened s id target d m x) (root file : Path) (level : Level) :
    Opened s id target d m
      (after (Handling.inWorld (s.pipeline.reanalyze root file level)) x) :=
  ⟨h.known, files_reanalyze Mirrors.ensureConfig root file level h.mirrors⟩

theorem written {file code : String} {account : FileError → Refusal}
    (h : Opened s id target d m x) (hfile : Path.Inner file)
    (hdone : outcome (Handling.onFiles account (s.writeCode (target.child file) code)) x =
      .ok ()) :
    Opened s id target d (m.put (Path.mk file).goal code.toUTF8)
      (after (Handling.onFiles account (s.writeCode (target.child file) code)) x) :=
  ⟨h.known, h.mirrors.writeCode hfile (Handling.ok_of_mapError hdone)⟩

/-- A change of a file is what it is on the map. -/
theorem analyzeCode {c : CodeChange} (h : Opened s c.session target d m x)
    (hread : s.readJson CodeChange.read r = .ok c)
    (hdone : outcome (s.analyzeCode r) x = .ok response) :
    Opened s c.session target d ((Edit.change c).applied m) (after (s.analyzeCode r) x) := by
  unfold Service.analyzeCode at hdone ⊢
  obtain ⟨c', hc, hdone, hafter⟩ := look_ok rfl hdone
  obtain rfl : c = c' := Except.ok.inj (hread.symm.trans hc)
  rw [hafter]
  obtain ⟨known?, -, hdone, hafter⟩ := look_ok rfl hdone
  rw [hafter, Edit.applied, Edit.text?]
  dsimp only at hdone ⊢
  split at hdone
  · next hblank =>
    rw [if_pos hblank, if_pos hblank]
    exact h
  next hblank =>
  rw [if_neg hblank, if_neg hblank]
  obtain ⟨root, -, hdone, hafter⟩ := look_ok rfl hdone
  rw [hafter]
  obtain ⟨path, hpath, hdone, hafter⟩ := look_ok rfl hdone
  rw [hafter]
  obtain ⟨hfile, rfl⟩ := (resolve_of_directory h.known).mp (Handling.ok_of_mapError hpath)
  obtain ⟨files, -, hdone, hafter⟩ := look_ok rfl hdone
  rw [hafter]
  obtain ⟨⟨⟩, hwrite, hdone, hafter⟩ := bind_ok_after hdone
  rw [hafter]
  have hwritten := h.written hfile hwrite
  obtain ⟨report, -, hdone, hafter⟩ := bind_ok_after hdone
  rw [hafter]
  obtain ⟨review, -, -, hafter⟩ := bind_ok_after hdone
  rw [hafter]
  exact (hwritten.reanalyze _ _ _).record _ _ _ _

/-- A fix of a file is what it is on the map, and is answered with the new text. -/
theorem applyFix {o : FixOrder} (h : Opened s o.session target d m x)
    (hread : s.readJson FixOrder.read r = .ok o)
    (hdone : outcome (s.applyFix r) x = .ok response) :
    Opened s o.session target d ((Edit.fix o).applied m) (after (s.applyFix r) x) ∧
    ∃ text, (Edit.fix o).text? m = some text ∧
      response.body = .json (.object [("success", .bool true), ("new_content", .string text),
        ("message", .string "Fix applied successfully"), ("file_path", .string o.file)]) := by
  unfold Service.applyFix at hdone ⊢
  obtain ⟨o', ho, hdone, hafter⟩ := look_ok rfl hdone
  obtain rfl : o = o' := Except.ok.inj (hread.symm.trans ho)
  rw [hafter]
  obtain ⟨path, hpath, hdone, hafter⟩ := look_ok rfl hdone
  rw [hafter]
  obtain ⟨hfile, rfl⟩ := (resolve_of_directory h.known).mp (Handling.ok_of_mapError hpath)
  obtain ⟨content, hfix, hdone, hafter⟩ := bind_ok_after hdone
  rw [hafter]
  have hfixing : outcome (s.fixing (target.child o.file) o) x.world.files = .ok content :=
    Handling.ok_of_mapError hfix
  obtain ⟨⟨old, hold, rfl⟩, hfixed⟩ := h.mirrors.fixing hfile hfixing
  have htext : (Edit.fix o).text? m = some (Text.replaceLine old (o.line.getD 0) o.fix) := by
    rw [Edit.text?, hold]
    rfl
  refine ⟨⟨h.known, ?_⟩, _, htext, ?_⟩
  · rw [Edit.applied, htext]
    exact hfixed
  · obtain rfl := Except.ok.inj hdone
    rfl

end Opened

end ReviewMentor

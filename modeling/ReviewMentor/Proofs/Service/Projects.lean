import ReviewMentor.Proofs.Files.Found
import ReviewMentor.Proofs.Http.Forms
import ReviewMentor.Proofs.Service.Edits
import ReviewMentor.Proofs.Zip.Marks
import ReviewMentor.Proofs.Sessions.Vacancy
import ReviewMentor.Proofs.Zip.Unpacking

/-!
# Projects as maps

From its upload on, the directory of a session behaves as one map from names to what the files with
these names hold. The archive gives the first map, each edit that is granted puts one entry, and
what is shown and given back is what the map holds.
-/

namespace ReviewMentor

open FileTree Effect SessionStore

/-! ### The upload -/

namespace Vacant

variable {p : Workplace} {home : Place}

section Made

variable (h : Vacant p home)
  (hfits : Fits p.sessions.root (p.sessions.namePrefix ++ idOf p.sessions.serial))

include h

/-- The new directory brings no link. -/
theorem sameLinks_made : SameLinks p.files (p.files.set (room p home) .directory) := by
  intro place target
  by_cases hbelow : room p home <+: place
  · by_cases heq : place = room p home
    · rw [heq, lookup?_set_self room_ne_nil, h.unused (room p home) (List.prefix_refl _)]
      simp
    · rw [h.lookup?_made_below hbelow heq, h.unused place hbelow]
  · rw [lookup?_made_beside hbelow]

theorem contents_made :
    (p.files.set (room p home) .directory).contents (room p home) = .empty := by
  funext names
  unfold contents
  by_cases hnames : names = []
  · rw [hnames, List.append_nil, lookup?_set_self room_ne_nil]
    rfl
  · rw [h.lookup?_made_below (List.prefix_append _ _) (by simpa using hnames)]
    rfl

include hfits

theorem standing_made {start : Place} (hstanding : Standing start p.files) :
    Standing start (p.files.set (room p home) .directory) := by
  have hnone := h.unused (room p home) (List.prefix_refl _)
  refine ⟨hstanding.sound.set h.isDirectory (hfits.storable h.isName) ?_ (by simp), ?_⟩
  · exact fun hdir => absurd (hnone.symm.trans hdir) (by simp)
  · by_cases heq : start = room p home
    · exact absurd (hnone.symm.trans (heq ▸ hstanding.start)) (by simp)
    · rw [lookup?_set_of_ne room_ne_nil heq, hstanding.start]

variable (user : Option String) (data : ByteArray)

theorem sameLinks_filled : SameLinks p.files (filled p home user data) :=
  h.sameLinks_made.trans (Zip.keeps_extract _ _ _ data _ (h.lies_made hfits user)).links

theorem project_filled (hstanding : Standing p.sessions.start p.files) :
    Project p.sessions.start (p.sessions.upcoming user).directory (room p home)
      (filled p home user data) :=
  ⟨Zip.staysStanding_extract _ _ data _ (h.standing_made hfits hstanding),
    h.find_room hfits (fun _ hplace => h.lookup?_filled hfits user data hplace)
      (isDirectory_filled p home user data) user true,
    isDirectory_filled p home user data,
    (Zip.keeps_extract _ _ _ data _ (h.lies_made hfits user)).links.linkFree h.linkFree_made⟩

theorem contents_filled {count : Nat}
    (hextract : outcome (Zip.extract p.sessions.start (p.sessions.upcoming user).directory data)
      (p.files.set (room p home) .directory) = .ok count) :
    ∃ entries, Zip.entries? data = some entries ∧
      (filled p home user data).contents (room p home) = Zip.filesOf entries :=
  Zip.contents_extract (h.lies_made hfits user) h.contents_made hextract

end Made

end Vacant

/-- A scene in which a session can begin apart from generated files: the next one has room, in a
tree to work in. -/
structure Welcoming (s : Service) (x : Scene) (home : Place) : Prop where
  vacant : Vacant x.workplace home
  start : x.sessions.start = s.here
  standing : Standing s.here x.world.files
  apart : s.pipeline.invoker.Apart s.here (Vacant.room x.workplace home) x.world.files

namespace Opened

variable {s : Service} {id : String} {target : Path} {d : Place} {m : FileMap} {x : Scene}
  {r : Http.Request} {response : Http.Response} {now : Timestamp}

/-- Reviewing a project leaves it. -/
theorem reviewing (h : Opened s id target d m x) (root : Path) (level : Level) :
    Opened s id target d m (after (s.reviewing root level) x) :=
  ⟨h.known, files_analyzeWithin Mirrors.ensureConfig root level _ h.mirrors⟩

/-- Keeping a review leaves the project of a session. -/
theorem attach (h : Opened s id target d m x) (other : String) (review : Review) :
    Opened s id target d m (after (Handling.onSessions (SessionWork.attach other review)) x) := by
  rw [Handling.after_onSessions]
  rcases after_attach_cases other review x.workplace with hsame | hset
  · rw [hsame]
    exact h
  · rw [hset]
    exact ⟨directory_setResult h.known _ _, h.mirrors⟩

end Opened

namespace Welcoming

variable {s : Service} {x : Scene} {home : Place} {r : Http.Request} {data : ByteArray}
  {user : Option String} {response : Http.Response} {session : Session}

/-- A session begins with the files of its archive. -/
theorem opened_create (h : Welcoming s x home)
    (hbegun : outcome (SessionWork.createFromArchive data user) x.workplace = .ok session) :
    ∃ entries, Zip.entries? data = some entries ∧
      Opened s (idOf x.sessions.serial) (x.sessions.upcoming user).directory
        (Vacant.room x.workplace home) (Zip.filesOf entries)
        (after (Handling.onSessions (SessionWork.createFromArchive data user)) x) := by
  rw [Handling.after_onSessions]
  rcases h.vacant.createFromArchive_eq data user with
    ⟨hfits, ⟨count, hextract⟩, -, hafter⟩ | ⟨⟨e, hrefused⟩, -⟩
  · obtain ⟨entries, hentries, hcontents⟩ := h.vacant.contents_filled hfits user data hextract
    have hproject := h.vacant.project_filled hfits user data (h.start ▸ h.standing)
    rw [hafter]
    refine ⟨entries, hentries, directory_eq_ok.mpr ⟨_, h.vacant.find?_joined user, rfl⟩, ?_⟩
    exact ⟨h.start ▸ hproject, h.apart.of_sameLinks (h.vacant.sameLinks_filled hfits user data),
      hcontents⟩
  · rw [hrefused] at hbegun
    exact absurd hbegun (by simp)

theorem opened_takeIn {level : Level} (h : Welcoming s x home)
    (hdone : outcome (s.takeIn data user level) x = .ok response) :
    ∃ entries, Zip.entries? data = some entries ∧
      Opened s (idOf x.sessions.serial) (x.sessions.upcoming user).directory
        (Vacant.room x.workplace home) (Zip.filesOf entries)
        (after (s.takeIn data user level) x) := by
  unfold Service.takeIn at hdone ⊢
  obtain ⟨session, hbegun, hdone, hafter⟩ := bind_ok_after hdone
  rw [hafter]
  obtain ⟨entries, hentries, hopened⟩ := h.opened_create (Handling.of_onSessions hbegun)
  obtain ⟨result, -, hdone, hafter⟩ := bind_ok_after hdone
  rw [hafter]
  refine ⟨entries, hentries, ?_⟩
  split at hdone
  · exact absurd hdone (by simp [outcome_get_bind, outcome_set_bind])
  · next review =>
    obtain ⟨⟨⟩, -, -, hafter⟩ := bind_ok_after hdone
    rw [hafter]
    exact (hopened.reviewing _ _).attach _ _

/-- **An upload gives a session the files of its archive.** -/
theorem opened_analyzeUpload (h : Welcoming s x home)
    (hdone : outcome (s.analyzeUpload r) x = .ok response) :
    ∃ entries, Zip.entries? r.body = some entries ∧
      Opened s (idOf x.sessions.serial)
        (x.sessions.upcoming (r.shownHeader? Service.userHeader)).directory
        (Vacant.room x.workplace home) (Zip.filesOf entries) (after (s.analyzeUpload r) x) := by
  unfold Service.analyzeUpload at hdone ⊢
  obtain ⟨asked, -, hdone, hafter⟩ := look_ok rfl hdone
  rw [hafter]
  obtain ⟨data, hdata, hdone, hafter⟩ := look_ok rfl hdone
  rw [hafter]
  have hbody : s.body r = .ok data := hdata
  obtain rfl : r.body = data := by
    unfold Service.body at hbody
    split_ifs at hbody
    exact Except.ok.inj hbody
  dsimp only at hdone ⊢
  split at hdone
  · exact absurd hdone (by simp)
  next hsome =>
  rw [if_neg hsome]
  have hlook : after (s.uploadLevel asked (r.shownHeader? Service.userHeader)) x = x :=
    (Service.uploadLevel_eq asked _ fun _ => rfl).2.2
  obtain ⟨level, -, hdone, hafter⟩ := look_ok hlook hdone
  rw [hafter]
  exact h.opened_takeIn hdone

end Welcoming

/-! ### Edits, one after another -/

namespace Service

/-- The edit that a request asks for. -/
def edit? (s : Service) (r : Http.Request) : Option Edit :=
  if r.method = "POST" ∧ r.path = ProjectRequest.change.path then
    (s.readJson CodeChange.read r).toOption.map .change
  else if r.method = "POST" ∧ r.path = ProjectRequest.fix.path then
    (s.readJson FixOrder.read r).toOption.map .fix
  else none

section Asked

variable {s : Service} {r : Http.Request} {c : CodeChange} {o : FixOrder}

theorem edit?_eq_change : s.edit? r = some (.change c) ↔
    r.method = "POST" ∧ r.path = ProjectRequest.change.path ∧
      s.readJson CodeChange.read r = .ok c := by
  unfold edit?
  rw [← and_assoc]
  split_ifs with hchange hfix
  · rcases s.readJson CodeChange.read r with e | c' <;> simp [hchange, Except.toOption]
  · simp [hchange]
  · simp [hchange]

theorem edit?_of_readChange (hmethod : r.method = "POST")
    (hpath : r.path = ProjectRequest.change.path)
    (hread : (s.readJson CodeChange.read r).toOption.map
      (fun c => (c.code, c.file, c.session, c.level)) = some (c.code, c.file, c.session, c.level)) :
    s.edit? r = some (.change c) := by
  obtain ⟨c', hc', hfields⟩ := Option.map_eq_some_iff.mp hread
  obtain rfl : c' = c := by
    cases c
    cases c'
    simpa using hfields
  exact edit?_eq_change.mpr ⟨hmethod, hpath, ok_of_toOption hc'⟩

theorem edit?_of_readFix (hmethod : r.method = "POST") (hpath : r.path = ProjectRequest.fix.path)
    (hread : (s.readJson FixOrder.read r).toOption.map
      (fun o => (o.file, o.line, o.fix, o.session)) = some (o.file, o.line, o.fix, o.session)) :
    s.edit? r = some (.fix o) := by
  obtain ⟨o', ho', hfields⟩ := Option.map_eq_some_iff.mp hread
  obtain rfl : o' = o := by
    cases o
    cases o'
    simpa using hfields
  have hother : ¬ (r.method = "POST" ∧ r.path = ProjectRequest.change.path) := fun h =>
    absurd (hpath.symm.trans h.2) (by decide)
  rw [edit?, if_neg hother, if_pos ⟨hmethod, hpath⟩, ho']
  rfl

end Asked

/-- Requests for edits of a session, each of which is answered as it was meant where the ones before
it lead. -/
def GrantsEdits (s : Service) (id : String) : Scene → List (Timestamp × Http.Request) → Prop
  | _, [] => True
  | x, q :: rest =>
    (∃ e, s.edit? q.2 = some e ∧ e.session = id) ∧ (s.answer q.1 q.2 x).2.status = 200 ∧
      GrantsEdits s id (s.answer q.1 q.2 x).1 rest

/-- The files of a project after the edits that requests ask for. -/
def filesAfter (s : Service) (m : FileMap) (requests : List (Timestamp × Http.Request)) : FileMap :=
  (requests.filterMap fun q => s.edit? q.2).foldl (fun m e => e.applied m) m

end Service

/-- What is answered when a file has got a new text by a fix. -/
def FixOrder.done (o : FixOrder) (text : String) : Http.Body :=
  .json (.object [("success", .bool true), ("new_content", .string text),
    ("message", .string "Fix applied successfully"), ("file_path", .string o.file)])

namespace Opened

variable {s : Service} {id : String} {target : Path} {d : Place} {m : FileMap} {x : Scene}
  {r : Http.Request} {response : Http.Response} {now : Timestamp} {e : Edit}

/-- A request that is granted does to the files what its edit does to the map. -/
theorem answer_edit (h : Opened s id target d m x) (hedit : s.edit? r = some e)
    (hsession : e.session = id) (hgranted : (s.answer now r x).2.status = 200) :
    Opened s id target d (e.applied m) (s.answer now r x).1 ∧
    ∀ o, e = .fix o → ∃ text, e.text? m = some text ∧ (s.answer now r x).2.body = o.done text := by
  subst hsession
  unfold Service.edit? at hedit
  split_ifs at hedit with hchange hfix
  · obtain ⟨c, hc, rfl⟩ := Option.map_eq_some_iff.mp hedit
    obtain ⟨response, hdone, hafter, -⟩ :=
      s.answer_granted (k := .change) hchange.2 hchange.1 hgranted
    rw [hafter]
    exact ⟨h.analyzeCode (ok_of_toOption hc) hdone, fun o ho => by simp at ho⟩
  · obtain ⟨o, ho, rfl⟩ := Option.map_eq_some_iff.mp hedit
    obtain ⟨response, hdone, hafter, hbody⟩ :=
      s.answer_granted (k := .fix) hfix.2 hfix.1 hgranted
    obtain ⟨hfixed, text, htext, hresponse⟩ := h.applyFix (ok_of_toOption ho) hdone
    rw [hafter]
    refine ⟨hfixed, fun o' ho' => ?_⟩
    obtain rfl := Edit.fix.inj ho'
    exact ⟨text, htext, hbody.trans hresponse⟩

theorem answerAll {requests : List (Timestamp × Http.Request)} (h : Opened s id target d m x)
    (hgranted : s.GrantsEdits id x requests) :
    Opened s id target d (s.filesAfter m requests) (s.answerAll x requests) := by
  induction requests generalizing x m with
  | nil => exact h
  | cons q rest ih =>
    obtain ⟨⟨e, hedit, hsession⟩, hstatus, hrest⟩ := hgranted
    have hnext := ih (h.answer_edit hedit hsession hstatus).1 hrest
    have hfiles : s.filesAfter m (q :: rest) = s.filesAfter (e.applied m) rest := by
      simp [Service.filesAfter, hedit]
    rw [hfiles]
    exact hnext

/-! ### Looking at the files -/

theorem isDirectory (h : Opened s id target d m x) :
    x.world.files.isDirectory s.here target = true := by
  simp [FileTree.isDirectory, entry?, h.mirrors.project.found, h.mirrors.project.isDirectory]

section Show

variable {file text : String} {names : List String} (h : Opened s id target d m x)
  (hfile : Service.valueAsked r "path" = .ok file)
  (hid : Service.valueAsked r "session_id" = .ok id)

include h hfile hid

/-- A file is shown where one is found. -/
theorem showFile_eq (hinner : Path.Inner file) : outcome (s.showFile r) x =
    if x.world.files.isFile s.here (target.child file) then
      match x.world.files.readText s.here (target.child file) with
      | .ok content => .ok (.ofJson (.object [("content", .string content)]))
      | .error _ => .error .broken
    else .error (.notFound ("File not found at: " ++ file)) := by
  have hpath : outcome (Handling.ask (·.resolve id file)) x = .ok (target.child file) := by
    show (x.sessions.resolve id file).mapError _ = _
    rw [(resolve_of_directory h.known).mpr ⟨hinner, rfl⟩]
    rfl
  unfold Service.showFile
  rw [outcome_look rfl (Handling.outcome_given hfile),
    outcome_look rfl (Handling.outcome_given hid), outcome_look rfl hpath,
    outcome_look rfl Handling.outcome_files]
  rcases x.world.files.isFile s.here (target.child file) with _ | _
  · rfl
  · rcases x.world.files.readText s.here (target.child file) with e | content <;> rfl

theorem showFile_spelled (hspells : Path.Spells file names)
    (hshort : (target.child file).text.utf8ByteSize < pathLimit)
    (htext : m.text? names = some text) :
    outcome (s.showFile r) x = .ok (.ofJson (.object [("content", .string text)])) := by
  obtain ⟨hproject, -, hcontents⟩ := h.mirrors
  have hbytes : x.world.files.contents d names = some text.toUTF8 :=
    hcontents ▸ FileMap.text?_eq_some.mp htext
  have hisFile := hproject.standing.sound.isFile_spelled hproject.found hproject.isDirectory hbytes
    hspells hshort
  have hread := hproject.standing.sound.readBytes_spelled hproject.found hproject.isDirectory hbytes
    hspells hshort
  rw [h.showFile_eq hfile hid hspells.inner, if_pos hisFile, readText, hread]
  simp only [fromUTF8?_toUTF8]

/-- Nothing is shown where the map has no file. -/
theorem showFile_missing (hinner : Path.Inner file) (hnone : m (Path.mk file).goal = none) :
    outcome (s.showFile r) x = .error (.notFound ("File not found at: " ++ file)) := by
  rw [h.showFile_eq hfile hid hinner, if_neg]
  intro hisFile
  obtain ⟨content, hread⟩ := readBytes_of_isFile hisFile
  have hsome := h.mirrors.project.lies.contents_of_readBytes hinner.relative hinner.staysBelow hread
  rw [h.mirrors.contents, hnone] at hsome
  exact absurd hsome (by simp)

/-- Nothing is shown under a path that is longer than paths may be. -/
theorem showFile_long (hinner : Path.Inner file)
    (hlong : pathLimit ≤ (target.child file).text.utf8ByteSize) :
    outcome (s.showFile r) x = .error (.notFound ("File not found at: " ++ file)) := by
  rw [h.showFile_eq hfile hid hinner, if_neg]
  intro hisFile
  obtain ⟨content, hread⟩ := readBytes_of_isFile hisFile
  exact absurd (passable_of_readBytes hread).short (Nat.not_lt.mpr hlong)

end Show

/-- All files are given back. -/
theorem exportProject_eq (h : Opened s id target d m x)
    (hread : s.readJson readSessionName r = .ok id) :
    outcome (s.exportProject r) x = .ok ⟨200, [("content-disposition",
      "attachment; filename=\"" ++ Zip.exportName id ++ "\"")],
      .archive (Zip.exportFiles x.world.files s.here target)⟩ := by
  have hdirectory : outcome (Handling.ask (·.directory id)) x = .ok target := by
    show (x.sessions.directory id).mapError _ = _
    rw [h.known]
    rfl
  unfold Service.exportProject
  rw [outcome_look rfl (Handling.outcome_given hread), outcome_look rfl hdirectory,
    outcome_look rfl Handling.outcome_files, h.isDirectory]
  rfl

end Opened

/-! ### The whole project -/

/-- A request to see a file of a session. -/
structure AsksFile (r : Http.Request) (id file : String) : Prop where
  method : r.method = "GET"
  path : r.path = ProjectRequest.read.path
  file : Service.valueAsked r "path" = .ok file
  session : Service.valueAsked r "session_id" = .ok id

/-- The directory of a session behaves as a map.

* `place`, `linkFree`, `contents`: it is there, no link lies in it, and its files are those of the
  map.
* `parents`: every name on the way to a file is a directory.
* `fixed`: a fix that is granted is answered with the text that it puts.
* `shown`: a file that holds a text is shown under every way to spell its names, but for paths that
  are longer than paths may be.
* `missing`, `tooLong`: nothing else is shown.
* `collected`: all files are given back, each of them once. -/
structure BehavesAs (s : Service) (id : String) (target : Path) (d : Place) (files : FileMap)
    (x : Scene) : Prop where
  place : x.world.files.find s.here true target = .ok d
  linkFree : LinkFree x.world.files d
  contents : x.world.files.contents d = files
  parents : ∀ names content, files names = some content → ∀ front, front <+: names →
    front ≠ names → x.world.files.lookup? (d ++ front) = some .directory
  fixed : ∀ now r o, s.edit? r = some (.fix o) → o.session = id →
    (s.answer now r x).2.status = 200 →
    ∃ text, (Edit.fix o).text? files = some text ∧ (s.answer now r x).2.body = o.done text
  shown : ∀ now r file names text, AsksFile r id file → Path.Spells file names →
    (target.child file).text.utf8ByteSize < pathLimit → files.text? names = some text →
    (s.answer now r x).2.status = 200 ∧
      (s.answer now r x).2.body = .json (.object [("content", .string text)])
  missing : ∀ now r file, AsksFile r id file → Path.Inner file →
    files (Path.mk file).goal = none → (s.answer now r x).2.status = 404
  tooLong : ∀ now r file, AsksFile r id file → Path.Inner file →
    pathLimit ≤ (target.child file).text.utf8ByteSize → (s.answer now r x).2.status = 404
  collected : ∀ now r, r.method = "POST" → r.path = ProjectRequest.collect.path →
    s.readJson readSessionName r = .ok id → ∃ archive, (s.answer now r x).2.status = 200 ∧
      (s.answer now r x).2.body = .archive archive ∧ (archive.map Prod.fst).Nodup ∧
      ∀ name content, (name, content) ∈ archive ↔
        ∃ names, files names = some content ∧ name = Text.join "/" names

theorem Opened.behavesAs {s : Service} {id : String} {target : Path} {d : Place} {m : FileMap}
    {x : Scene} (h : Opened s id target d m x) : BehavesAs s id target d m x := by
  have hproject := h.mirrors.project
  have hsound := hproject.standing.sound
  have hread : ∀ now {r file}, AsksFile r id file →
      (s.answer now r x).2.status = (Service.reply (outcome (s.showFile r) x)).status ∧
      (s.answer now r x).2.body = (Service.reply (outcome (s.showFile r) x)).body :=
    fun now _ _ hasks => s.answer_reply (k := .read) now x hasks.path hasks.method
  refine ⟨hproject.found, hproject.linkFree, h.mirrors.contents, ?_, ?_, ?_, ?_, ?_, ?_⟩
  · rintro names content hfile front ⟨more, rfl⟩ hne
    rw [← h.mirrors.contents] at hfile
    obtain ⟨mode, hentry⟩ := contents_eq_some.mp hfile
    rw [← List.append_assoc] at hentry
    exact hsound.directory_of_append (by simpa using hne) hentry
  · intro now r o hedit hsession hgranted
    exact (h.answer_edit hedit hsession hgranted).2 o rfl
  · intro now r file names text hasks hspells hshort htext
    obtain ⟨hstatus, hbody⟩ := hread now hasks
    rw [hstatus, hbody, h.showFile_spelled hasks.file hasks.session hspells hshort htext]
    exact ⟨rfl, rfl⟩
  · intro now r file hasks hinner hnone
    rw [(hread now hasks).1, h.showFile_missing hasks.file hasks.session hinner hnone]
    rfl
  · intro now r file hasks hinner hlong
    rw [(hread now hasks).1, h.showFile_long hasks.file hasks.session hinner hlong]
    rfl
  · intro now r hmethod hpath hsession
    obtain ⟨hstatus, hbody⟩ := s.answer_reply (k := .collect) now x hpath hmethod
    have hcollected : outcome (ProjectRequest.collect.handle s r) x = _ :=
      h.exportProject_eq hsession
    rw [hcollected] at hstatus hbody
    obtain ⟨hnames, hfiles⟩ := Zip.exportFiles_spec hsound hproject.found hproject.isDirectory
    refine ⟨_, hstatus, hbody, hnames, fun name content => ?_⟩
    rw [hfiles, h.mirrors.contents]

/-- An archive of one file, `a.py`. -/
def smallArchive : List UInt8 :=
  [80, 75, 3, 4, 20, 0, 0, 0, 0, 0, 0, 0, 34, 80, 31, 8, 234, 70, 2, 0, 0, 0, 2, 0, 0, 0, 4, 0, 0,
    0, 97, 46, 112, 121, 120, 10] ++
  [80, 75, 1, 2, 20, 3, 20, 0, 0, 0, 0, 0, 0, 0, 34, 80, 31, 8, 234, 70, 2, 0, 0, 0, 2, 0, 0, 0, 4,
    0, 0, 0, 0, 0, 0, 0, 0, 0, 0, 0, 128, 1, 0, 0, 0, 0, 97, 46, 112, 121] ++
  [80, 75, 5, 6, 0, 0, 0, 0, 1, 0, 1, 0, 50, 0, 0, 0, 36, 0, 0, 0, 0, 0]

/-- A new file in a new directory. -/
def changeDeep : Timestamp × Http.Request :=
  ⟨⟨0, 0⟩, "POST", "/api/v1/analysis/analyze-code", "", [("content-type", "application/json")],
    ("\x7b\"session_id\": \"" ++ idOf 0 ++ "\", \"file_path\": \"./d/b.py\", " ++
      "\"code\": \"y\"\x7d").toUTF8⟩

/-- A fix for the new file, under another spelling. -/
def fixDeep : Timestamp × Http.Request :=
  ⟨⟨0, 0⟩, "POST", "/api/v1/analysis/apply-fix", "", [("content-type", "application/json")],
    ("\x7b\"session_id\": \"" ++ idOf 0 ++ "\", \"file_path\": \"d//b.py\", \"fix\": \"z\", " ++
      "\"issue\": \x7b\"line\": 1\x7d\x7d").toUTF8⟩

/-- Reading a file of the first session. -/
def readingFirst (file : String) : Http.Request :=
  ⟨"GET", "/api/v1/files", "session_id" ++ "=" ++ idOf 0 ++ "&" ++ ("path" ++ "=" ++ file), [],
    .empty⟩

theorem asksFile_readingFirst {file : String} (h : Http.Plain file) :
    AsksFile (readingFirst file) (idOf 0) file := by
  have hid : Http.Plain (idOf 0) :=
    ⟨by decide +kernel, by decide +kernel, by decide +kernel, by decide +kernel⟩
  have hfields : Http.formFields (readingFirst file).query =
      [("session_id", idOf 0), ("path", file)] := by
    show Http.formFields (_ ++ "=" ++ _ ++ "&" ++ _) = _
    rw [Http.formFields_cons ⟨by decide, by decide, by decide, by decide⟩ hid,
      Http.formFields_single ⟨by decide, by decide, by decide, by decide⟩ h]
  refine ⟨rfl, rfl, ?_, ?_⟩ <;> rw [Service.valueAsked, hfields] <;> simp [Http.formValue?]

theorem welcoming_linkedScene : Welcoming quietService linkedScene ["s"] := by
  have hentries : linkedScene.world.files.entries =
    [(["s"], .directory), (["l"], .link "s"), (["t"], .file .empty defaultMode)] := rfl
  have hstorable : Storable "s" ∧ Storable "l" ∧ Storable "t" := by decide
  refine ⟨⟨by decide +kernel, rfl, by decide, linkedSite.unused 0, fun x hx => absurd hx ?_⟩, rfl,
    ⟨.of_entries (by decide) ?_ ?_, rfl⟩, ["c"], ?_, by decide, fun name hname s hs => ?_⟩
  · exact List.not_mem_nil
  · rw [hentries]
    simpa [hasDirectory] using hstorable
  · rw [hentries]
    simp
  · -- No link lies on the way to the generated files.
    have hnames : ["c"].filterMap Path.component? = ["c"].map .name := by decide
    have hlead : Leads linkedScene.world.files nowhere [] ["c"] ([] ++ ["c"]) := by
      refine leads_of_names hnames fun more hmore hne target hlink => ?_
      have hmem := mem_of_lookup? (by simpa using hne) hlink
      rw [hentries] at hmem
      simp at hmem
      simp [hmem.1] at hmore
    exact hlead
  · have hmem := mem_of_lookup? (by simp) hs
    rw [hentries] at hmem
    simp at hmem

/-- The archive is taken in, and the new file is written and fixed. -/
theorem granted_smallArchive :
    let uploaded := quietService.answer ⟨0, 0⟩ (uploading smallArchive) linkedScene
    let changed := quietService.answer changeDeep.1 changeDeep.2 uploaded.1
    uploaded.2.status = 200 ∧ changed.2.status = 200 ∧
      (quietService.answer fixDeep.1 fixDeep.2 changed.1).2.status = 200 := by
  decide +kernel

theorem edit?_changeDeep : quietService.edit? changeDeep.2 =
    some (.change ⟨"y", "./d/b.py", idOf 0, none⟩) :=
  Service.edit?_of_readChange rfl rfl (by decide +kernel)

theorem edit?_fixDeep : quietService.edit? fixDeep.2 =
    some (.fix ⟨"d//b.py", some 1, "z", idOf 0⟩) :=
  Service.edit?_of_readFix rfl rfl (by decide +kernel)

theorem edits_smallArchive :
    let uploaded := quietService.answer ⟨0, 0⟩ (uploading smallArchive) linkedScene
    quietService.GrantsEdits (idOf 0) uploaded.1 [changeDeep, fixDeep] :=
  have hgranted := granted_smallArchive.2
  ⟨⟨_, edit?_changeDeep, rfl⟩, hgranted.1, ⟨_, edit?_fixDeep, rfl⟩, hgranted.2, trivial⟩

/-- A text with dots and slashes before it. -/
def dotted : Nat → String → String
  | 0, file => file
  | n + 1, file => "." ++ "/" ++ dotted n file

theorem spells_dotted {file : String} {names : List String} (h : Path.Spells file names) :
    ∀ n, Path.Spells (dotted n file) names
  | 0 => h
  | n + 1 => (spells_dotted h n).dotted

theorem size_dotted (file : String) :
    ∀ n, (dotted n file).utf8ByteSize = 2 * n + file.utf8ByteSize
  | 0 => by simp [dotted]
  | n + 1 => by
    have hdot : ".".utf8ByteSize = 1 := by decide
    have hslash : "/".utf8ByteSize = 1 := by decide
    rw [dotted, String.utf8ByteSize_append, String.utf8ByteSize_append, size_dotted file n]
    omega

theorem plain_dotted {file : String} (h : Http.Plain file) : ∀ n, Http.Plain (dotted n file)
  | 0 => h
  | n + 1 =>
    (Http.Plain.append ⟨by decide, by decide, by decide, by decide⟩
      ⟨by decide, by decide, by decide, by decide⟩).append (plain_dotted h n)

end ReviewMentor

import ReviewMentor.Proofs.Service.Inside
import ReviewMentor.Proofs.Sessions.Orders

/-!
# What becomes of an upload

Taking an archive in ends in one of two ways: a session begins that has a review, or sessions and
files are as they were. The status of the answer tells which, and what was wrong with the archive.
-/

namespace ReviewMentor

open FileTree Effect SessionStore

variable {α ε : Type} {s : Service} {g : Site} {x : Scene} {r : Http.Request} {level : Level}

/-! ### The steps of an answer -/

namespace Handling

theorem after_given (result : Except Refusal α) :
    after (ExceptT.mk (pure result) : Handling α) x = x := rfl

theorem outcome_onSessions (w : SessionWork α) :
    outcome (onSessions w) x = (outcome w x.workplace).mapError .ofSession := rfl

theorem after_onSessions (w : SessionWork α) : after (onSessions w) x =
    ⟨{ x.world with files := (after w x.workplace).files }, (after w x.workplace).sessions⟩ := rfl

end Handling

theorem Pipeline.outcome_analyzeWithin {p : Pipeline} {root : Path} {w : World}
    (h : p.checkRoot w.files root = .ok ()) (level : Level) (millis : Nat) :
    ∃ review, outcome (p.analyzeWithin root level millis) w = .ok review ∧
      review.level = level := by
  unfold analyzeWithin
  rw [outcome_bind_ok (outcome_checkRoot h)]
  exact ⟨_, rfl, rfl⟩

namespace Service

/-- Reviewing the project in the directory of a session. -/
def reviewing (s : Service) (directory : Path) (level : Level) :
    Handling (Except RootError Review) :=
  let millis := s.settings.analysisSeconds * 1000
  Handling.inWorld fun world =>
    let (world, result) := (s.pipeline.analyzeWithin directory level millis).run world
    (result, world)

theorem outcome_reviewing (directory : Path) : outcome (s.reviewing directory level) x =
    .ok (outcome (s.pipeline.analyzeWithin directory level (s.settings.analysisSeconds * 1000))
      x.world) := rfl

theorem sessions_reviewing (directory : Path) :
    (after (s.reviewing directory level) x).sessions = x.sessions := rfl

/-- The response that shows the review of a new session. -/
def welcome (session : Session) (review : Review) : Http.Response :=
  .ofJson (.object (review.members Issue.view ++
    [("session_id", .string session.id), ("temp_dir", .string session.directory.text)]))

/-- What is done with an archive when the request has been read. -/
def takeIn (s : Service) (data : ByteArray) (user : Option String) (level : Level) :
    Handling Http.Response := do
  let session ← Handling.onSessions (SessionWork.createFromArchive data user)
  match ← s.reviewing session.directory level with
  | .error _ =>
    let scene ← get
    set ((Handling.onSessions (SessionWork.cleanup session.id)).run scene).1
    throw .broken
  | .ok review =>
    Handling.onSessions (SessionWork.attach session.id review)
    pure (welcome session review)

section Reading

variable {x : Scene} (hasked : levelAsked r = .ok (some level))

include hasked

theorem analyzeUpload_unread {refusal : Refusal} (hbody : s.body r = .error refusal) :
    outcome (s.analyzeUpload r) x = .error refusal ∧ after (s.analyzeUpload r) x = x := by
  have hlevel : outcome (ExceptT.mk (pure (levelAsked r)) : Handling (Option Level)) x =
      .ok (some level) := hasked
  have hdata : outcome (ExceptT.mk (pure (s.body r)) : Handling ByteArray) x = .error refusal :=
    hbody
  unfold analyzeUpload
  rw [outcome_bind_ok hlevel, after_bind_ok hlevel, Handling.after_given, outcome_bind_error hdata,
    after_bind_error hdata]
  exact ⟨rfl, rfl⟩

theorem analyzeUpload_read (hbody : s.body r = .ok r.body) :
    (r.body.size = 0 → outcome (s.analyzeUpload r) x = .error (.badRequest "Empty upload") ∧
      after (s.analyzeUpload r) x = x) ∧
    (r.body.size ≠ 0 →
      outcome (s.analyzeUpload r) x =
        outcome (s.takeIn r.body (r.shownHeader? userHeader) level) x ∧
      after (s.analyzeUpload r) x =
        after (s.takeIn r.body (r.shownHeader? userHeader) level) x) := by
  have hlevel : outcome (ExceptT.mk (pure (levelAsked r)) : Handling (Option Level)) x =
      .ok (some level) := hasked
  have hdata : outcome (ExceptT.mk (pure (s.body r)) : Handling ByteArray) x = .ok r.body := hbody
  unfold analyzeUpload
  rw [outcome_bind_ok hlevel, after_bind_ok hlevel, Handling.after_given, outcome_bind_ok hdata,
    after_bind_ok hdata, Handling.after_given]
  dsimp only
  refine ⟨fun hempty => ?_, fun hsome => ?_⟩
  · rw [if_pos hempty]
    exact ⟨rfl, rfl⟩
  · rw [if_neg hsome]
    exact ⟨rfl, rfl⟩

end Reading

theorem takeIn_refused {e : SessionError} {data : ByteArray} {user : Option String} (level : Level)
    (h : outcome (SessionWork.createFromArchive data user) x.workplace = .error e) :
    outcome (s.takeIn data user level) x = .error (.ofSession e) ∧
      (after (s.takeIn data user level) x).workplace =
        after (SessionWork.createFromArchive data user) x.workplace := by
  have hbegun : outcome (Handling.onSessions (SessionWork.createFromArchive data user)) x =
      .error (.ofSession e) := by
    rw [Handling.outcome_onSessions, h]
    rfl
  unfold takeIn
  rw [outcome_bind_error hbegun, after_bind_error hbegun, Handling.after_onSessions]
  exact ⟨rfl, rfl⟩

theorem takeIn_ok {session : Session} {data : ByteArray} {user : Option String} {p : Workplace}
    (level : Level)
    (h : outcome (SessionWork.createFromArchive data user) x.workplace = .ok session)
    (hp : after (SessionWork.createFromArchive data user) x.workplace = p)
    (hknown : p.sessions.find? session.id = some session)
    (hroot : s.pipeline.checkRoot p.files session.directory = .ok ()) :
    ∃ review, review.level = level ∧
      outcome (s.takeIn data user level) x = .ok (welcome session review) ∧
      (after (s.takeIn data user level) x).sessions =
        p.sessions.setResult session.id review := by
  have hbegun : outcome (Handling.onSessions (SessionWork.createFromArchive data user)) x =
      .ok session := by
    rw [Handling.outcome_onSessions, h]
    rfl
  obtain ⟨review, hreview, hlevel⟩ := Pipeline.outcome_analyzeWithin
    (w := { x.world with files := p.files }) hroot level (s.settings.analysisSeconds * 1000)
  have hreviewing : outcome (s.reviewing session.directory level)
      ⟨{ x.world with files := p.files }, p.sessions⟩ = .ok (.ok review) := by
    rw [outcome_reviewing, hreview]
  refine ⟨review, hlevel, ?_⟩
  unfold takeIn
  rw [outcome_bind_ok hbegun, after_bind_ok hbegun, Handling.after_onSessions, hp,
    outcome_bind_ok hreviewing, after_bind_ok hreviewing]
  dsimp only
  generalize hy : after (s.reviewing session.directory level) _ = y
  have hsessions : y.sessions = p.sessions := by
    rw [← hy, sessions_reviewing]
  obtain ⟨hafter, hattach⟩ :=
    SessionWork.after_attach (p := y.workplace) review (hsessions ▸ hknown)
  have hattached : outcome (Handling.onSessions (SessionWork.attach session.id review)) y =
      .ok () := by
    rw [Handling.outcome_onSessions, hattach]
    rfl
  rw [outcome_bind_ok hattached, after_bind_ok hattached, Handling.after_onSessions, hafter,
    ← hsessions]
  exact ⟨rfl, rfl⟩

/-- The response to a request that is handled by `takeIn`. -/
theorem answer_upload (now : Timestamp) (hpath : r.path = ProjectRequest.upload.path)
    (hmethod : r.method = "POST") (x : Scene) :
    (s.answer now r x).1 = after (s.analyzeUpload r) x ∧
    (s.answer now r x).2 = { shown r (outcome (s.analyzeUpload r) x) with
      headers := s.originHeaders r ++ (shown r (outcome (s.analyzeUpload r) x)).headers } :=
  s.answer_of_method now hpath hmethod x

end Service

/-! ### Whose fault it is -/

/-- A service whose sessions are at a site, where the next one can begin. -/
structure Waiting (s : Service) (g : Site) (x : Scene) : Prop where
  registered : Registered g x.workplace
  here : s.here = g.start
  fits : Fits g.root (g.namePrefix ++ idOf x.sessions.serial)

/-- What comes of unpacking an archive in the directory of the next session. -/
def unpacking (g : Site) (x : Scene) (data : ByteArray) : Except ArchiveError Nat :=
  outcome (Zip.extract g.start (g.pathOf (idOf x.sessions.serial)) data)
    (x.world.files.set (g.placeOf (idOf x.sessions.serial)) .directory)

theorem unpacking_eq (g : Site) (x : Scene) (data : ByteArray) : unpacking g x data =
    outcome (Zip.extract g.start (g.pathOf (idOf x.workplace.sessions.serial)) data)
      (x.workplace.files.set (g.placeOf (idOf x.workplace.sessions.serial)) .directory) := rfl

/-- The status that tells what came of unpacking. -/
def unpackStatus : Except ArchiveError Nat → Nat
  | .ok _ => 200
  | .error .invalid | .error (.unsafeEntry _) => 400
  | .error .damaged | .error (.storage _) => 500

/-- The status of the answer to an upload. -/
def uploadStatus (limit : Nat) (data : ByteArray) (unpacked : Except ArchiveError Nat) : Nat :=
  if limit < data.size then 413
  else if data.size = 0 then 400
  else unpackStatus unpacked

theorem Service.status_shown (hmethod : r.method = "POST") (result : Except Refusal Http.Response) :
    (shown r result).status = match result with
      | .ok response => response.status
      | .error refusal => refusal.response.status := by
  unfold shown
  rw [if_neg (by simp [hmethod])]
  split <;> rfl

namespace Waiting

theorem takeIn_cases (hw : Waiting s g x) (level : Level) (data : ByteArray)
    (user : Option String) :
    (∃ count review, unpacking g x data = .ok count ∧ review.level = level ∧
      outcome (s.takeIn data user level) x =
        .ok (Service.welcome (x.sessions.upcoming user) review) ∧
      (after (s.takeIn data user level) x).sessions.live =
        x.sessions.live ++ [{ x.sessions.upcoming user with result := some review }]) ∨
    ∃ e, unpacking g x data = .error e ∧
      outcome (s.takeIn data user level) x = .error (.ofSession (.archive e)) ∧
      Restored x.workplace (after (s.takeIn data user level) x).workplace := by
  have hcreate := hw.registered.outcome_createFromArchive hw.fits data user
  rw [← unpacking_eq] at hcreate
  rcases hunpacking : unpacking g x data with e | count <;> rw [hunpacking] at hcreate
  · obtain ⟨houtcome, hafter⟩ := Service.takeIn_refused (s := s) level hcreate
    refine .inr ⟨e, rfl, houtcome, ?_⟩
    rw [hafter]
    rcases hw.registered.begins_unpack data user with ⟨y, hok, -⟩ | ⟨-, -, hrestored⟩
    · rw [hok] at hcreate
      simp at hcreate
    · exact hrestored
  · have hbegun : outcome (SessionWork.createFromArchive data user) x.workplace =
        .ok (x.sessions.upcoming user) := hcreate
    obtain ⟨hnew, ⟨-, hsessions, -⟩ | ⟨⟨e, herror⟩, -⟩⟩ :=
      hw.registered.createFromArchive_cases data user
    · generalize hp : after (SessionWork.createFromArchive data user) x.workplace = p
        at hnew hsessions
      have hmem : x.sessions.upcoming user ∈ p.sessions.live := by
        rw [hsessions]
        exact List.mem_append_right _ (List.mem_singleton_self _)
      -- The new session has a directory, so the analysis cannot fail.
      have hroot : s.pipeline.checkRoot p.files (x.sessions.upcoming user).directory = .ok () := by
        have hfind := hnew.housed.find hmem true
        have hdirectory :
            p.files.hasDirectory (g.placeOf (x.sessions.upcoming user).id) = true := by
          rw [hasDirectory, hnew.housed.directories _ hmem]
        have hcwd : s.pipeline.machine.cwd = g.start := hw.here
        rw [Pipeline.checkRoot, hcwd, hfind]
        exact if_pos hdirectory
      obtain ⟨review, hlevel, houtcome, hafter⟩ :=
        Service.takeIn_ok level hbegun hp (hnew.find?_eq_some hmem) hroot
      refine .inl ⟨count, review, rfl, hlevel, houtcome, ?_⟩
      rw [hafter, hsessions]
      have hothers : ∀ y ∈ x.sessions.live, y.id ≠ idOf x.sessions.serial :=
        hw.registered.id_ne_idOf (Nat.le_refl _)
      show (x.sessions.live ++ [x.sessions.upcoming user]).map _ = _
      rw [List.map_append, List.map_singleton, if_pos rfl]
      congr 1
      exact (List.map_congr_left fun y hy => if_neg (hothers y hy)).trans (List.map_id _)
    · rw [herror] at hbegun
      simp at hbegun

theorem analyzeUpload_cases (hw : Waiting s g x)
    (hasked : Service.levelAsked r = .ok (some level)) :
    let status := uploadStatus s.settings.server.uploadLimit r.body (unpacking g x r.body)
    let session := x.sessions.upcoming (r.shownHeader? Service.userHeader)
    (∃ review, status = 200 ∧ review.level = level ∧
      outcome (s.analyzeUpload r) x = .ok (Service.welcome session review) ∧
      (after (s.analyzeUpload r) x).sessions.live =
        x.sessions.live ++ [{ session with result := some review }]) ∨
    ∃ refusal : Refusal, status = refusal.response.status ∧ status ≠ 200 ∧
      outcome (s.analyzeUpload r) x = .error refusal ∧
      Restored x.workplace (after (s.analyzeUpload r) x).workplace := by
  intro status session
  by_cases hlarge : s.settings.server.uploadLimit < r.body.size
  · have hstatus : status = 413 := if_pos hlarge
    have hbody : s.body r = .error (.unreadable 413) := if_pos hlarge
    obtain ⟨houtcome, hafter⟩ := Service.analyzeUpload_unread (x := x) hasked hbody
    refine .inr ⟨_, hstatus.trans rfl, by simp [hstatus], houtcome, ?_⟩
    rw [hafter]
    exact ⟨rfl, fun _ => rfl⟩
  have hbody : s.body r = .ok r.body := if_neg hlarge
  by_cases hempty : r.body.size = 0
  · have hstatus : status = 400 := (if_neg hlarge).trans (if_pos hempty)
    obtain ⟨houtcome, hafter⟩ := (Service.analyzeUpload_read (x := x) hasked hbody).1 hempty
    refine .inr ⟨_, hstatus.trans rfl, by simp [hstatus], houtcome, ?_⟩
    rw [hafter]
    exact ⟨rfl, fun _ => rfl⟩
  · have hstatus : status = unpackStatus (unpacking g x r.body) :=
      (if_neg hlarge).trans (if_neg hempty)
    obtain ⟨houtcome, hafter⟩ := (Service.analyzeUpload_read (x := x) hasked hbody).2 hempty
    rw [houtcome, hafter]
    rcases hw.takeIn_cases level r.body (r.shownHeader? Service.userHeader) with
      ⟨count, review, hunpacked, hreview, hok, hlive⟩ | ⟨e, hunpacked, herror, hrestored⟩
    · refine .inl ⟨review, ?_, hreview, hok, hlive⟩
      rw [hstatus, hunpacked]
      rfl
    · refine .inr ⟨_, ?_, ?_, herror, hrestored⟩ <;> rw [hstatus, hunpacked] <;> cases e
      all_goals simp [unpackStatus, Refusal.ofSession, Refusal.response, Refusal.told]

end Waiting

/-- An archive whose unpacking ends in an internal error holds an entry with a safe name that is
damaged or cannot be written. -/
theorem culprit_of_status {data : ByteArray} (h : unpackStatus (unpacking g x data) = 500) :
    ∃ before e rest content intact, Zip.entries? data = some (before ++ e :: rest) ∧
      e.content = .bytes content intact ∧ Zip.isEnclosed e.name = true ∧
      (intact = true → ∃ cause, unpacking g x data = .error (.storage cause)) := by
  rcases hunpacking : unpacking g x data with cause | count <;> rw [hunpacking] at h
  · rcases Zip.extract_error hunpacking with ⟨-, rfl⟩ | ⟨before, e, rest, bs, hentries, -, he, -⟩
    · simp [unpackStatus] at h
    rcases Zip.extractEntry_error he with ⟨-, rfl⟩ |
      ⟨content, intact, hbytes, ⟨-, rfl, -⟩ | ⟨hsafe, hspoilt⟩⟩
    · simp [unpackStatus] at h
    · simp [unpackStatus] at h
    · refine ⟨before, e, rest, content, intact, hentries, hbytes, hsafe, fun hintact => ?_⟩
      cases cause with
      | storage cause => exact ⟨cause, rfl⟩
      | damaged => exact absurd hspoilt (by simp [Zip.Spoilt, hintact])
      | invalid | unsafeEntry => exact hspoilt.elim
  · simp [unpackStatus] at h

/-- **An upload begins one session or leaves no trace.** Its status says how it was unpacked: the
session that begins has the review that is shown, and an upload that is refused leaves sessions and
files as they were. Only an entry with a safe name that is damaged or cannot be written is told as
an internal error. -/
theorem upload_accepted_or_undone (s : Service) (g : Site) (x : Scene) (hw : Waiting s g x)
    (now : Timestamp) (r : Http.Request) (level : Level)
    (hpath : r.path = ProjectRequest.upload.path) (hmethod : r.method = "POST")
    (hasked : Service.levelAsked r = .ok (some level)) :
    let answered := s.answer now r x
    let session := x.sessions.upcoming (r.shownHeader? Service.userHeader)
    answered.2.status =
      uploadStatus s.settings.server.uploadLimit r.body (unpacking g x r.body) ∧
    (answered.2.status = 200 → ∃ review, review.level = level ∧
      answered.1.sessions.live =
        x.sessions.live ++ [{ session with result := some review }] ∧
      answered.2.body = (Service.welcome session review).body) ∧
    (answered.2.status ≠ 200 → Restored x.workplace answered.1.workplace) ∧
    (answered.2.status = 500 → ∃ before e rest content intact,
      Zip.entries? r.body = some (before ++ e :: rest) ∧ e.content = .bytes content intact ∧
      Zip.isEnclosed e.name = true ∧
      (intact = true → ∃ cause, unpacking g x r.body = .error (.storage cause))) := by
  intro answered session
  obtain ⟨hleft, hresponse⟩ := Service.answer_upload (s := s) now hpath hmethod x
  change answered.1 = _ at hleft
  change answered.2 = _ at hresponse
  have hstatus : answered.2.status =
      uploadStatus s.settings.server.uploadLimit r.body (unpacking g x r.body) := by
    rw [hresponse]
    show (Service.shown r _).status = _
    rw [Service.status_shown hmethod]
    rcases hw.analyzeUpload_cases hasked with ⟨review, hok, -, houtcome, -⟩ |
      ⟨refusal, hrefused, -, houtcome, -⟩
    · rw [houtcome, hok]
      rfl
    · rw [houtcome, hrefused]
  refine ⟨hstatus, fun hok => ?_, fun hrefused => ?_, fun hbroken => ?_⟩
  · rcases hw.analyzeUpload_cases hasked with ⟨review, -, hlevel, houtcome, hlive⟩ |
      ⟨refusal, -, hne, -⟩
    · refine ⟨review, hlevel, hleft ▸ hlive, ?_⟩
      rw [hresponse, houtcome]
      show (Service.shown r _).body = _
      rw [Service.shown, if_neg (by simp [hmethod])]
    · exact absurd (hstatus.symm.trans hok) hne
  · rcases hw.analyzeUpload_cases hasked with ⟨review, hok, -⟩ | ⟨refusal, -, -, -, hrestored⟩
    · exact absurd (hstatus.trans hok) hrefused
    · exact hleft ▸ hrestored
  · have h := hstatus.symm.trans hbroken
    unfold uploadStatus at h
    split_ifs at h
    · simp at h
    · simp at h
    · exact culprit_of_status h

/-- A service without sessions at a root that is reached by a link. -/
def linkedScene : Scene := ⟨⟨linkedSite.files, [], 0⟩, linkedSite.opening.sessions⟩

/-- Uploading an archive for a beginner. -/
def uploading (archive : List UInt8) : Http.Request :=
  ⟨"POST", "/api/v1/analysis/analyze-zip", "level=beginner", [], ⟨archive.toArray⟩⟩

/-- An archive without entries. -/
def bareArchive : List UInt8 := [80, 75, 5, 6] ++ List.replicate 18 0

theorem waiting_linkedScene : Waiting quietService linkedSite linkedScene :=
  ⟨Registered.opening linkedSite, rfl, by decide +kernel, by decide +kernel, by decide +kernel⟩

theorem upload_accepted_or_undone_linked :
    Waiting quietService linkedSite linkedScene ∧
    (uploading bareArchive).path = ProjectRequest.upload.path ∧
    (uploading bareArchive).method = "POST" ∧
    Service.levelAsked (uploading bareArchive) = .ok (some .beginner) ∧
    (∃ review, review.level = .beginner ∧
      (quietService.answer ⟨0, 0⟩ (uploading bareArchive) linkedScene).1.sessions.live =
        [⟨idOf 0, ⟨"/l/p-" ++ idOf 0⟩, none, some review⟩]) ∧
    Restored linkedScene.workplace
      (quietService.answer ⟨0, 0⟩ (uploading [80, 75, 5]) linkedScene).1.workplace := by
  have hasked : Service.levelAsked (uploading bareArchive) = .ok (some .beginner) := by
    decide +kernel
  obtain ⟨-, haccepted, -⟩ := upload_accepted_or_undone quietService linkedSite linkedScene
    waiting_linkedScene ⟨0, 0⟩ (uploading bareArchive) .beginner rfl rfl hasked
  obtain ⟨-, -, hundone, -⟩ := upload_accepted_or_undone quietService linkedSite linkedScene
    waiting_linkedScene ⟨0, 0⟩ (uploading [80, 75, 5]) .beginner rfl rfl hasked
  obtain ⟨review, hlevel, hlive, -⟩ := haccepted (by decide +kernel)
  refine ⟨waiting_linkedScene, rfl, rfl, hasked, ⟨review, hlevel, ?_⟩, hundone (by decide +kernel)⟩
  rw [hlive]
  rfl

/-- An archive of one file, which does not have the checksum of its record. -/
def damagedArchive : List UInt8 :=
  [80, 75, 3, 4, 20, 0, 0, 0, 0, 0, 0, 0, 34, 80, 0, 0, 0, 0, 1, 0, 0, 0, 1, 0, 0, 0, 4, 0, 0, 0,
    97, 46, 112, 121, 120] ++
  [80, 75, 1, 2, 20, 3, 20, 0, 0, 0, 0, 0, 0, 0, 34, 80, 0, 0, 0, 0, 1, 0, 0, 0, 1, 0, 0, 0, 4, 0,
    0, 0, 0, 0, 0, 0, 0, 0, 0, 0, 164, 129, 0, 0, 0, 0, 97, 46, 112, 121] ++
  [80, 75, 5, 6, 0, 0, 0, 0, 1, 0, 1, 0, 50, 0, 0, 0, 35, 0, 0, 0, 0, 0]

/-- A damaged archive is told as an internal error, although its sender could have known better. -/
theorem damaged_upload_is_broken :
    (quietService.answer ⟨0, 0⟩ (uploading damagedArchive) linkedScene).2.status = 500 := by
  decide +kernel

end ReviewMentor

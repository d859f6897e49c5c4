import ReviewMentor.Service.Basic

/-!
# Analysis over the service

Uploading a project, looking at one of its files again, applying fixes, and getting the project
back. The reviews of a session follow its files: what a new look at a file finds takes the place of
what was known about it.
-/

namespace ReviewMentor

/-- The new text of a file that is to be looked at again. -/
structure CodeChange where
  code : String
  file : String
  session : String
  level : Option Level

/-- A fix for a line of a file. -/
structure FixOrder where
  file : String
  line : Option Nat
  fix : String
  session : String

namespace CodeChange

/-- Reads a new text of a file. -/
def read : Json.Decode CodeChange :=
  ((Json.Record.start CodeChange.mk)
    |>.needs ["code"] Json.Draft.text
    |>.needs ["file_path"] Json.Draft.text
    |>.needs ["session_id"] Json.Draft.text
    |>.allows "experience_level" Level.read).read

end CodeChange

namespace FixOrder

/-- Reads the line of an issue. -/
def readLine : Json.Decode (Option Nat) :=
  ((Json.Record.start id).allows "line" (Json.Draft.natural 32)).read

/-- Reads a fix. -/
def read : Json.Decode FixOrder :=
  ((Json.Record.start FixOrder.mk)
    |>.needs ["file_path"] Json.Draft.text
    |>.defaults "issue" readLine none
    |>.needs ["fix"] Json.Draft.text
    |>.needs ["session_id"] Json.Draft.text).read

end FixOrder

/-- Reads the name of a session. -/
def readSessionName : Json.Decode String :=
  ((Json.Record.start id).needs ["session_id"] Json.Draft.text).read

/-- Reads code with an issue in it. -/
def readCodeIssue : Json.Decode (String × Issue) :=
  ((Json.Record.start Prod.mk)
    |>.needs ["code"] Json.Draft.text
    |>.needs ["issue"] Issue.read).read

namespace Review

/-- The review of a project in which nothing was looked at. -/
def blank (level : Level) : Review :=
  { kind := .unknown, linter := .ruff, complexityTool := .radon, level
    security := .ok [], main := .ok [], complexity := .ok [] }

end Review

namespace Service

/-- The header that says who sends a request. -/
def userHeader : String := "x-user-id"

/-- The level of an upload: the one asked for, or that of the learner. -/
def uploadLevel (s : Service) (asked : Option Level) (user : Option String) : Handling Level :=
  match asked, user with
  | some level, _ => pure level
  | none, none => pure Level.default
  | none, some user => do
    let p ← Handling.onFiles .ofProfile (Disk.ask (s.teacher.profiles.get s.here user))
    pure p.level

/-- Reviews an uploaded project. A project that cannot be reviewed leaves no session. -/
def analyzeUpload (s : Service) (r : Http.Request) : Handling Http.Response := do
  let asked ← ExceptT.mk (pure (levelAsked r))
  let data ← ExceptT.mk (pure (s.body r))
  if data.size = 0 then throw (.badRequest "Empty upload")
  let user := r.shownHeader? userHeader
  let level ← s.uploadLevel asked user
  let session ← Handling.onSessions (SessionWork.createFromArchive data user)
  let millis := s.settings.analysisSeconds * 1000
  match ← Handling.inWorld fun world =>
      let (world, result) := (s.pipeline.analyzeWithin session.directory level millis).run world
      (result, world) with
  | .error _ =>
    let scene ← get
    set ((Handling.onSessions (SessionWork.cleanup session.id)).run scene).1
    throw .broken
  | .ok review =>
    Handling.onSessions (SessionWork.attach session.id review)
    pure (.ofJson (.object (review.members Issue.view ++
      [("session_id", .string session.id), ("temp_dir", .string session.directory.text)])))

/-- Makes a file of a session hold a new text. -/
def writeCode (s : Service) (path : Path) (code : String) : Disk FileError Unit := do
  match path.parent? with
  | some parent => Disk.of fun t => t.makeDirectories s.here parent
  | none => pure ()
  Disk.change fun t => t.writeText s.here path code

/-- What a session shows after a new look at one of its files. A look that failed leaves the known
issues as they are and only tells its error. -/
def record (session file : String) (level : Level) (report : Report) : SessionWork Review := do
  let shown? ←
    if report.success then
      SessionWork.update session (Review.replaceFileIssues file report.issues)
    else do
      let known? ← SessionWork.ask (·.result session)
      pure (known?.map fun r => { r with main := { r.main with error := report.error } })
  pure (shown?.getD { Review.blank level with main := report })

/-- Looks at a file of a session again. -/
def analyzeCode (s : Service) (r : Http.Request) : Handling Http.Response := do
  let change ← ExceptT.mk (pure (s.readJson CodeChange.read r))
  let known? ← Handling.ask (·.result change.session)
  let level := (change.level.orElse fun _ => known?.map Review.level).getD Level.default
  if Text.isAllBlank change.code then return .ofJson (Review.blank level).view
  let root ← Handling.ask (·.directory change.session)
  let path ← Handling.ask (·.resolve change.session change.file)
  let file := (Invoker.rootOf s.pipeline.machine (← Handling.files) root).relative change.file
  Handling.onFiles (fun _ => .broken) (s.writeCode path change.code)
  let report ← Handling.inWorld (s.pipeline.reanalyze root ⟨file⟩ level)
  let review ← Handling.onSessions (record change.session file level report)
  pure (.ofJson review.view)

/-- Applies a fix to a file of a session. -/
def applyFix (s : Service) (r : Http.Request) : Handling Http.Response := do
  let order ← ExceptT.mk (pure (s.readJson FixOrder.read r))
  let path ← Handling.ask (·.resolve order.session order.file)
  let content ← Handling.onFiles .ofFix (Disk.of fun t =>
    match t.fixLine s.here path (order.line.getD 0) order.fix with
    | .ok (t, content) => (t, .ok content)
    | .error e => (t, .error e))
  pure (.ofJson (.object [("success", .bool true), ("new_content", .string content),
    ("message", .string "Fix applied successfully"), ("file_path", .string order.file)]))

/-- Gives the files of a session back. -/
def exportProject (s : Service) (r : Http.Request) : Handling Http.Response := do
  let session ← ExceptT.mk (pure (s.readJson readSessionName r))
  let directory ← Handling.ask (·.directory session)
  let t ← Handling.files
  if !t.isDirectory s.here directory then throw (.notFound "Project not found")
  let disposition := "attachment; filename=\"" ++ Zip.exportName session ++ "\""
  pure ⟨200, [("content-disposition", disposition)],
    .archive (Zip.exportFiles t s.here directory)⟩

/-- Suggests a fix for an issue. -/
def suggestFix (s : Service) (r : Http.Request) : Handling Http.Response := do
  let (code, issue) ← ExceptT.mk (pure (s.readJson readCodeIssue r))
  pure (.ofJson (Suggestion.ofIssue code issue).toJson)

/-- Shows how the analyzers are configured. -/
def showConfigs (s : Service) : Handling Http.Response := do
  let configs ← Handling.onFiles (fun _ => .broken) (s.pipeline.invoker.snapshot s.here)
  pure (.ofJson (.object (configs.map fun c => (c.1, .string c.2))))

/-- Shows a file of a session. -/
def showFile (s : Service) (r : Http.Request) : Handling Http.Response := do
  let file ← ExceptT.mk (pure (valueAsked r "path"))
  let session ← ExceptT.mk (pure (valueAsked r "session_id"))
  let path ← Handling.ask (·.resolve session file)
  let t ← Handling.files
  if !t.isFile s.here path then throw (.notFound ("File not found at: " ++ file))
  match t.readText s.here path with
  | .ok content => pure (.ofJson (.object [("content", .string content)]))
  | .error _ => throw .broken

end Service

end ReviewMentor

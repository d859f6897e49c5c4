import ReviewMentor.Analysis.Pipeline
import ReviewMentor.Http.Message
import ReviewMentor.Sessions
import ReviewMentor.Teaching.Explain

/-!
# The service

What the service is made of, what changes while it works, and how it refuses a request. What goes
wrong inside is never told to a client.
-/

namespace ReviewMentor

/-- What answers requests. -/
structure Service where
  settings : Settings
  pipeline : Pipeline
  teacher : Teacher
  send : Transport

/-- What changes while the service works. -/
structure Scene where
  world : World
  sessions : SessionStore

/-- Why a request is not answered as it was meant. -/
inductive Refusal where
  | notFound (message : String)
  | badRequest (message : String)
  /-- Something went wrong inside. -/
  | broken
  /-- The request cannot be read; the status says why. -/
  | unreadable (status : Nat)
deriving DecidableEq, Repr

namespace Refusal

/-- The response that tells about an error. -/
def told (status : Nat) (code message : String) : Http.Response :=
  ⟨status, [], .json (.object [("error",
    .object [("code", .string code), ("message", .string message)])])⟩

/-- The response to a request that is refused. -/
def response : Refusal → Http.Response
  | notFound message => told 404 "NOT_FOUND" message
  | badRequest message => told 400 "BAD_REQUEST" message
  | broken => told 500 "INTERNAL_ERROR" "Internal server error"
  | unreadable status => .rejection status

/-- The refusal of work on sessions. -/
def ofSession : SessionError → Refusal
  | .notFound id => notFound (SessionError.notFound id).message
  | .badPath path => badRequest (SessionError.badPath path).message
  | .archive .damaged | .archive (.storage _) | .storage _ => broken
  | .archive e => badRequest e.message

/-- The refusal of a fix. -/
def ofFix : FixError → Refusal
  | .notFound _ => notFound "File not found"
  | .failed _ _ => broken

/-- The refusal of work on profiles. -/
def ofProfile : ProfileError → Refusal
  | .badUser user => badRequest (ProfileError.badUser user).message
  | .corrupt _ | .storage _ => broken

end Refusal

/-- Work of the service; what was changed before a refusal stays changed. -/
abbrev Handling (α : Type) := ExceptT Refusal (StateM Scene) α

namespace Handling

variable {ε α : Type}

/-- Runs work of the service: the scene after it, and what came out. -/
def run (w : Handling α) (scene : Scene) : Scene × Except Refusal α :=
  let (result, scene) := StateT.run (ExceptT.run w) scene
  (scene, result)

/-- Looks at the sessions. -/
def ask (f : SessionStore → Except SessionError α) : Handling α :=
  ExceptT.mk fun scene => ((f scene.sessions).mapError .ofSession, scene)

/-- Work on sessions. -/
def onSessions (w : SessionWork α) : Handling α :=
  ExceptT.mk fun scene =>
    let (p, result) := w.run ⟨scene.sessions, scene.world.files⟩
    (result.mapError .ofSession,
      ⟨{ scene.world with files := p.files }, p.sessions⟩)

/-- Work on files. -/
def onFiles (account : ε → Refusal) (w : Disk ε α) : Handling α :=
  ExceptT.mk fun scene =>
    let (files, result) := w.run scene.world.files
    (result.mapError account, { scene with world := { scene.world with files } })

/-- Work in the world that cannot fail. -/
def inWorld (w : StateM World α) : Handling α :=
  ExceptT.mk fun scene =>
    let (a, world) := StateT.run w scene.world
    (.ok a, { scene with world })

/-- The files as they are now. -/
def files : Handling FileTree := do
  pure (← get).world.files

/-- Refuses a request unless there is a value. -/
def orRefuse (refusal : Refusal) : Option α → Handling α
  | some a => pure a
  | none => throw refusal

end Handling

/-- The root of the sessions cannot be made. -/
structure RootBlocked where
  path : Path
deriving DecidableEq, Repr

/-- What is said about a root of the sessions that cannot be made. -/
def RootBlocked.message (e : RootBlocked) : String :=
  "Failed to create session root " ++ e.path.text

namespace Service

/-- The service that settings describe, with a store for its sessions. A model that cannot be asked
is done without. -/
def start (settings : Settings) (machine : Machine) (send : Transport) (writer : Nat) :
    Disk RootBlocked (Service × SessionStore) := do
  let root := settings.sessions.rootPath machine.temporary
  Disk.of fun t =>
    let (t, result) := t.makeDirectories machine.cwd root
    (t, result.mapError fun _ => ⟨root⟩)
  let invoker : Invoker := ⟨settings.tools, settings.tools.configPath machine.temporary, writer⟩
  let client? := (Client.ofSettings settings.ai).toOption.join
  pure (⟨settings, ⟨invoker, machine⟩, ⟨⟨⟨settings.profiles⟩, writer⟩, client?⟩, send⟩,
    .empty root settings.sessions.namePrefix machine.cwd)

/-- Where relative paths start. -/
def here (s : Service) : Place := s.pipeline.machine.cwd

/-- The body of a request, unless it is too large. -/
def body (s : Service) (r : Http.Request) : Except Refusal ByteArray :=
  if s.settings.server.uploadLimit < r.body.size then .error (.unreadable 413) else .ok r.body

/-- Reads the body of a request as JSON. -/
def readJson {α : Type} (s : Service) (read : Json.Decode α) (r : Http.Request) :
    Except Refusal α := do
  if !r.isJson then throw (.unreadable 415)
  let body ← s.body r
  match Json.decodeFront read body with
  | .ok a => pure a
  | .error .malformed => throw (.unreadable 400)
  | .error .shape => throw (.unreadable 422)

/-- The level that a request asks for in its query. -/
def levelAsked (r : Http.Request) : Except Refusal (Option Level) :=
  match Http.formValue? (Http.formFields r.query) "level" with
  | .error _ => .error (.unreadable 400)
  | .ok none => .ok none
  | .ok (some word) => match Level.named? word with
    | some level => .ok (some level)
    | none => .error (.unreadable 400)

/-- A value that a query has to have. -/
def valueAsked (r : Http.Request) (name : String) : Except Refusal String :=
  match Http.formValue? (Http.formFields r.query) name with
  | .ok (some value) => .ok value
  | _ => .error (.unreadable 400)

/-- The text of a part of the path. -/
def partAsked (part : String) : Except Refusal String :=
  match Http.pathText? part with
  | some s => .ok s
  | none => .error (.unreadable 400)

end Service

end ReviewMentor

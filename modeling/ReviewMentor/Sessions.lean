import ReviewMentor.Review
import ReviewMentor.Zip.Archive

/-!
# Sessions

A session binds a project to a directory of its own and to the last review of the project. A store
knows the sessions that are alive. Removing a session forgets it first and then takes its directory
away, so that a session whose directory cannot be removed is forgotten all the same.
-/

namespace ReviewMentor

/-- Why work on a session fails. -/
inductive SessionError where
  | notFound (id : String)
  /-- A path that does not lead into the directory of the session. -/
  | badPath (path : String)
  | archive (cause : ArchiveError)
  | storage (cause : FileError)
deriving DecidableEq, Repr

/-- What is said about failed work on a session. -/
def SessionError.message : SessionError → String
  | notFound id => "Session not found: " ++ id
  | badPath path => "Invalid file path: " ++ path
  | archive e => e.message
  | storage e => "I/O error: " ++ e.message

/-- A project in a directory of its own. -/
structure Session where
  id : String
  directory : Path
  user : Option String
  result : Option Review
deriving DecidableEq, Repr

/-- The sessions that are alive, and where their directories lie. -/
structure SessionStore where
  root : Path
  namePrefix : String
  /-- Where a relative root starts. -/
  start : Place
  /-- How many sessions were begun so far. -/
  serial : Nat
  live : List Session
deriving DecidableEq, Repr

/-- Sessions and the files that they lie in. -/
structure Workplace where
  sessions : SessionStore
  files : FileTree

/-- Work on sessions that may fail; what was changed before a failure stays changed. -/
abbrev SessionWork (α : Type) := ExceptT SessionError (StateM Workplace) α

/-- Runs work on sessions: the workplace after it, and what came out. -/
def SessionWork.run {α : Type} (w : SessionWork α) (p : Workplace) :
    Workplace × Except SessionError α :=
  let (result, p) := StateT.run (ExceptT.run w) p
  (p, result)

/-- Work on files as work on sessions. -/
def SessionWork.onFiles {ε α : Type} (account : ε → SessionError) (w : Disk ε α) : SessionWork α :=
  ExceptT.mk fun p =>
    let (files, result) := w.run p.files
    (result.mapError account, { p with files })

namespace SessionStore

/-- A store without sessions. -/
def empty (root : Path) (namePrefix : String) (start : Place) : SessionStore :=
  ⟨root, namePrefix, start, 0, []⟩

/-- The digits of a number to the base 16, at least eight of them. -/
def serialDigits (n : Nat) : String :=
  let digits := Nat.toDigits 16 n
  String.ofList (List.replicate (8 - digits.length) '0' ++ digits)

/-- The name of the session with the given number. -/
def idOf (serial : Nat) : String :=
  serialDigits serial ++ "-5e55-4104-9b0a-726576696577"

/-- The session with a name. -/
def find? (s : SessionStore) (id : String) : Option Session :=
  s.live.find? (·.id = id)

/-- The session with a name, or a failure. -/
def find (s : SessionStore) (id : String) : Except SessionError Session :=
  match s.find? id with
  | some session => .ok session
  | none => .error (.notFound id)

/-- The number of live sessions. -/
def size (s : SessionStore) : Nat := s.live.length

/-- The store without a session. -/
def erase (s : SessionStore) (id : String) : SessionStore :=
  { s with live := s.live.filter (·.id ≠ id) }

/-- The store with another review of a session. -/
def setResult (s : SessionStore) (id : String) (r : Review) : SessionStore :=
  { s with live := s.live.map fun x => if x.id = id then { x with result := some r } else x }

/-- The directory of a session. -/
def directory (s : SessionStore) (id : String) : Except SessionError Path :=
  (s.find id).map Session.directory

/-- Whether a component of a path stays in the directory. -/
def isInner : Component → Bool
  | .name _ | .here => true
  | .root | .up => false

/-- Where a path leads that is given within a session. -/
def resolve (s : SessionStore) (id relative : String) : Except SessionError Path := do
  let directory ← s.directory id
  if relative = "" || !(Path.mk relative).components.all isInner then throw (.badPath relative)
  pure (directory.child relative)

/-- The last review of a session. -/
def result (s : SessionStore) (id : String) : Except SessionError (Option Review) :=
  (s.find id).map Session.result

end SessionStore

namespace SessionWork

/-- Looks at the store. -/
def ask {α : Type} (f : SessionStore → Except SessionError α) : SessionWork α :=
  ExceptT.mk fun p => (f p.sessions, p)

/-- Begins a session: its name, and its empty directory. -/
def create (user : Option String) : SessionWork Session := do
  let s := (← get).sessions
  let id := SessionStore.idOf s.serial
  let session : Session := ⟨id, s.root.child (s.namePrefix ++ id), user, none⟩
  modify fun p => { p with sessions := { p.sessions with serial := s.serial + 1 } }
  onFiles .storage (Disk.of fun t => t.makeDirectories s.start session.directory)
  modify fun p => { p with sessions := { p.sessions with live := p.sessions.live ++ [session] } }
  pure session

/-- Takes the directory of a session away, if it is there. -/
def removeDirectory (directory : Path) : SessionWork Unit := do
  let start := (← get).sessions.start
  onFiles .storage (Disk.change fun t =>
    match t.removeDirectory start directory with
    | .error .notFound => .ok t
    | other => other)

/-- Forgets a session and takes its directory away. -/
def cleanup (id : String) : SessionWork Unit := do
  let session ← ask (·.find id)
  modify fun p => { p with sessions := p.sessions.erase id }
  removeDirectory session.directory

/-- Begins a session with the files of an archive. An archive that cannot be unpacked leaves no
session. -/
def createFromArchive (data : ByteArray) (user : Option String) : SessionWork Session := do
  let session ← create user
  let start := (← get).sessions.start
  let p ← get
  let (files, result) := (Zip.extract start session.directory data).run p.files
  set { p with files }
  match result with
  | .ok _ => pure session
  | .error e =>
    let p ← get
    set ((cleanup session.id).run p).1
    throw (.archive e)

/-- Stores a review with its session. -/
def attach (id : String) (r : Review) : SessionWork Unit := do
  let _ ← ask (·.find id)
  modify fun p => { p with sessions := p.sessions.setResult id r }

/-- Changes the review of a session; the review after that, if there is one. -/
def update (id : String) (change : Review → Review) : SessionWork (Option Review) := do
  match (← ask (·.find id)).result with
  | none => pure none
  | some r =>
    attach id (change r)
    pure (some (change r))

/-- Forgets all sessions and takes their directories away; how many could be removed. -/
def cleanupAll : SessionWork Nat := do
  let live := (← get).sessions.live
  modify fun p => { p with sessions := { p.sessions with live := [] } }
  live.foldlM (fun count session => do
    let p ← get
    let (p, result) := (removeDirectory session.directory).run p
    set p
    pure (match result with
      | .ok _ => count + 1
      | .error _ => count)) 0

end SessionWork

end ReviewMentor

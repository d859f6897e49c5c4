import ReviewMentor.Files.Disk
import ReviewMentor.Fix
import ReviewMentor.Learner.Profile
import ReviewMentor.Json.Printer

/-!
# Stored profiles

Profiles lie in a directory, one file for each learner. A profile is written beside its file first
and then moved over it, so that a reader sees the old profile or the new one and nothing between.
-/

namespace ReviewMentor

/-- Why a profile cannot be read or stored. -/
inductive ProfileError where
  | badUser (user : String)
  | corrupt (path : Path)
  | storage (cause : Option FileError)
deriving DecidableEq, Repr

/-- What is said about a profile that cannot be read or stored. -/
def ProfileError.message : ProfileError → String
  | badUser user => "Invalid user id: '" ++ user ++ "'"
  | corrupt path => "Corrupt profile " ++ path.text
  | storage (some e) => "Profile storage error: " ++ e.message
  | storage none => "Profile storage error: stream did not contain valid UTF-8"

/-- The longest name of a learner. -/
def longestUser : Nat := 128

/-- Whether a character may stand in the name of a learner. -/
def isUserChar (c : Char) : Bool :=
  c.isAlphanum || c = '-' || c = '_' || c = '.' || c = '@'

/-- Whether a text may be the name of a learner; names become names of files. -/
def isUser (user : String) : Bool :=
  let cs := user.toList
  cs ≠ [] && user.utf8ByteSize ≤ longestUser && cs.head? ≠ some '.' && cs.all isUserChar

/-- Accepts the name of a learner. -/
def checkUser (user : String) : Except ProfileError Unit :=
  if isUser user then .ok () else .error (.badUser user)

/-- Where profiles are stored. -/
structure ProfileStore where
  directory : Path
  /-- The number in the names of files that are being written. -/
  writer : Nat
deriving DecidableEq, Repr

namespace ProfileStore

/-- The file of a learner. -/
def fileOf (s : ProfileStore) (user : String) : Path :=
  s.directory.child (user ++ ".json")

/-- The file in which a profile is written before it is moved. -/
def stagingOf (s : ProfileStore) (user : String) : Path :=
  s.directory.child (user ++ "." ++ toString s.writer ++ ".tmp")

/-- The profile of a learner; one without a file gets a fresh profile. -/
def get (s : ProfileStore) (start : Place) (user : String) (t : FileTree) :
    Except ProfileError Profile := do
  checkUser user
  match t.readText start (s.fileOf user) with
  | .error (some .notFound) => .ok (.fresh user)
  | .error e => .error (.storage e)
  | .ok content => match Json.decode Profile.read content with
    | .ok p => .ok { p with user }
    | .error _ => .error (.corrupt (s.fileOf user))

/-- Stores a profile. -/
def save (s : ProfileStore) (start : Place) (p : Profile) : Disk ProfileError Unit := do
  Disk.ask fun _ => checkUser p.user
  let failed (e : FileError) : ProfileError := .storage (some e)
  Disk.of fun t => let (t, r) := t.makeDirectories start s.directory; (t, r.mapError failed)
  Disk.change fun t =>
    (t.writeText start (s.stagingOf p.user) p.toJson.pretty).mapError failed
  Disk.change fun t => (t.rename start (s.stagingOf p.user) (s.fileOf p.user)).mapError failed

/-- Changes the stored profile of a learner; the profile after the change. -/
def update (s : ProfileStore) (start : Place) (user : String) (change : Profile → Profile) :
    Disk ProfileError Profile := do
  let p := change (← Disk.ask (s.get start user))
  s.save start p
  pure p

/-- Applies an edit to the stored profile of a learner. -/
def edit (s : ProfileStore) (start : Place) (user : String) (e : ProfileEdit) :
    Disk ProfileError Profile :=
  s.update start user (·.edit e)

end ProfileStore

end ReviewMentor

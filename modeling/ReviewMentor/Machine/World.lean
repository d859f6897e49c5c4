import ReviewMentor.Files.Disk

/-!
# The machine around the program

The world that changes while the program works: files, the commands that were started, and the time
that has passed. What other programs do when they are started is given as a function.
-/

namespace ReviewMentor

/-- A started command: where its program lies, what it was started with, and in which directory. -/
structure Call where
  program : Place
  argv : List String
  directory : Place
deriving DecidableEq, Repr

/-- What came of a command: what it printed, its exit code unless it was killed, and how many
milliseconds it ran. -/
structure Ending where
  stdout : ByteArray
  stderr : ByteArray
  code : Option Int
  millis : Nat

/-- What does not change while the program works. -/
structure Machine where
  cwd : Place
  /-- The directory for temporary files. -/
  temporary : Path
  environment : List (String × String)
  /-- Where commands without a slash are looked for. -/
  searchPath : List Path
  /-- What a program does that may be executed. -/
  execute : FileTree → Call → Except FileError Ending

/-- What changes while the program works. -/
structure World where
  files : FileTree
  calls : List Call
  /-- Milliseconds since the start. -/
  clock : Nat

/-- Work in the world that may fail; what was changed before a failure stays changed. -/
abbrev Work (ε : Type) (α : Type) := ExceptT ε (StateM World) α

namespace Work

variable {ε α β : Type}

/-- Runs work: the world after it, and what came out. -/
def run (w : Work ε α) (world : World) : World × Except ε α :=
  let (result, world) := StateT.run (ExceptT.run w) world
  (world, result)

/-- Work given by what it does to the world. -/
def of (f : World → World × Except ε α) : Work ε α :=
  ExceptT.mk fun world => let (world, result) := f world; (result, world)

/-- Looks at the files. -/
def look (f : FileTree → α) : Work ε α :=
  of fun world => (world, .ok (f world.files))

/-- Work on the files only. -/
def onFiles (w : Disk ε α) : Work ε α :=
  of fun world => let (files, result) := w.run world.files; ({ world with files }, result)

/-- The same work with another account of its failure. -/
def mapError (f : ε → β) (w : Work ε α) : Work β α :=
  of fun world => let (world, result) := w.run world; (world, result.mapError f)

/-- The same work, with its failure as a value. -/
def attempt (w : Work ε α) : Work β (Except ε α) :=
  of fun world => let (world, result) := w.run world; (world, .ok result)

/-- Work that cannot fail, as a change of the world. -/
def ofState (w : StateM World α) : Work ε α :=
  of fun world => let (a, world) := w.run world; (world, .ok a)

end Work

namespace Machine

/-- The value of a variable of the environment. -/
def environmentValue (m : Machine) (name : String) : Option String :=
  m.environment.lookup name

/-- Whether a mode lets a file be executed by someone. -/
def mayExecute (mode : Nat) : Bool :=
  mode &&& 0o111 ≠ 0

/-- The file of a program at a path, if it may be executed. -/
def executable (files : FileTree) (directory : Place) (p : Path) : Except FileError Place := do
  let place ← files.find directory true p
  match files.lookup? place with
  | some (.file _ mode) => if mayExecute mode then .ok place else .error .notPermitted
  | some .directory => .error .notPermitted
  | _ => .error .notFound

/-- The file of the first program of a name in some directories. A program that may not be executed
is passed over, but remembered. -/
def search (files : FileTree) (directory : Place) (name : String) (refused : FileError) :
    List Path → Except FileError Place
  | [] => .error refused
  | p :: rest =>
    match executable files directory (p.child name) with
    | .ok place => .ok place
    | .error .notPermitted => search files directory name .notPermitted rest
    | .error _ => search files directory name refused rest

/-- The file of the program that a command names. -/
def resolve (m : Machine) (files : FileTree) (directory : Place) (program : String) :
    Except FileError Place :=
  if program = "" then .error .notFound
  else if program.toList.contains '/' then executable files directory ⟨program⟩
  else search files directory program .notFound m.searchPath

/-- The directory in which a command is started. -/
def directoryOf (m : Machine) (files : FileTree) (directory? : Option Path) :
    Except FileError Place :=
  match directory? with
  | none => .ok m.cwd
  | some p => do
    let place ← files.find m.cwd true p
    if files.hasDirectory place then .ok place else .error .notDirectory

/-- Whether a text can be given to a command: it holds no NUL. -/
def isPassable (text : String) : Bool :=
  text.toList.all (· ≠ Char.ofNat 0)

/-- Starts a command and waits for its end, or for the given number of milliseconds. -/
def start (m : Machine) (argv : List String) (directory? : Option Path) (limit? : Option Nat) :
    Work FileError Ending :=
  Work.of fun world =>
    let begun : Except FileError (Call × Ending) := do
      if !(argv ++ (directory?.map Path.text).toList).all isPassable then .error .badCommand
      let directory ← m.directoryOf world.files directory?
      let call : Call := ⟨← m.resolve world.files directory (argv.headD ""), argv, directory⟩
      pure (call, ← m.execute world.files call)
    match begun with
    | .error e => (world, .error e)
    | .ok (call, ending) =>
      let spent := match limit? with
        | some limit => min limit ending.millis
        | none => ending.millis
      ({ world with calls := world.calls ++ [call], clock := world.clock + spent }, .ok ending)

end Machine

end ReviewMentor

import ReviewMentor.Cli.Commands

/-!
# The program

Loads the files that a command may look at, carries the command out, and writes what it changed.
Other programs are not started from here and nothing listens, so every analyzer counts as missing.
-/

namespace ReviewMentor.Main

/-- Makes the places on the way to a place directories. -/
def openWay (t : FileTree) (place : Place) : FileTree :=
  (place.foldl (fun (t, way) name =>
    let way := way ++ [name]
    (if t.hasDirectory way then t else t.set way .directory, way)) (t, [])).1

/-- The names of an absolute path. -/
def placeOf (path : String) : Place := (Path.mk path).parts

/-- The text of a place. -/
def textOf (place : Place) : String := (Path.ofNames place).text

/-- Loads what stands at a place and below it. What cannot be read is left out. -/
partial def load (t : FileTree) (place : Place) : IO FileTree := do
  try
    let mut t := t.set place .directory
    for entry in ← (← IO.FS.realPath (textOf place)).readDir do
      if (← entry.path.symlinkMetadata).type != .symlink then
        t ← load t (place ++ [entry.fileName])
    pure t
  catch _ =>
    try
      let content ← IO.FS.readBinFile (textOf place)
      pure (t.set place (.file content FileTree.defaultMode))
    catch _ => pure t

/-- Loads what a path leads to, if it leads anywhere. -/
def loadPath (t : FileTree) (path : String) : IO FileTree := do
  try
    let place := placeOf (← IO.FS.realPath path).toString
    load (openWay t place.dropLast) place
  catch _ => pure t

/-- Whether a file holds the given bytes already. -/
def isUnchanged (t : FileTree) (place : Place) (content : ByteArray) : Bool :=
  match t.lookup? place with
  | some (.file old _) => old.data == content.data
  | _ => false

/-- Writes what differs from what was there before. -/
def store (before after : FileTree) : IO Unit := do
  for (place, entry) in after.entries do
    match entry with
    | .directory => if !before.hasDirectory place then IO.FS.createDirAll (textOf place)
    | .file content _ =>
      if !isUnchanged before place content then IO.FS.writeBinFile (textOf place) content
    | .link _ => pure ()
  for (place, entry) in before.entries.reverse do
    if (after.lookup? place).isNone then
      match entry with
      | .directory => IO.FS.removeDir (textOf place)
      | _ => IO.FS.removeFile (textOf place)

/-- The variables of the environment that the program knows. -/
def knownVariables : List String :=
  ["HOME", "XDG_CONFIG_HOME", "TMPDIR", "PINK_REVIEW_CONFIG", "PINK_REVIEW_BIND",
    "PINK_REVIEW_SESSION_ROOT", "PINK_REVIEW_PROFILE_DIR", "DEEPSEEK_API_KEY", "OPENAI_API_KEY"]

/-- The known variables that are set. -/
def environment : IO (List (String × String)) := do
  let values ← knownVariables.mapM fun name => do pure (name, ← IO.getEnv name)
  pure (values.filterMap fun v => v.2.map fun value => (v.1, value))

/-- What is said about the use of the program. -/
def usage : String :=
  "Usage: pink-review [--log-level LEVEL] [--config FILE] COMMAND\n\n" ++
  "Commands:\n  serve [--bind ADDRESS]\n  analyze [PATH] [-l LEVEL] [-f FORMAT]\n" ++
  "  doctor\n  debug-config\n  init [PATH]"

/-- The paths that an invocation names. -/
def pathsOf (i : Invocation) : List String :=
  let target := match i.command with
    | .analyze path _ _ | .init path => [path.text]
    | _ => []
  target ++ (i.config.map Path.text).toList

/-- Carries an invocation out; the exit code. -/
def carryOut (i : Invocation) (environment : List (String × String)) : IO UInt32 := do
  let cwd := placeOf (← IO.currentDir).toString
  let temporary : Path := ⟨(environment.lookup "TMPDIR").getD "/tmp"⟩
  let user := ((Settings.userFile? fun name => environment.lookup name).map Path.text).toList
  let mut before ← load (openWay .empty cwd) cwd
  for path in pathsOf i ++ user do
    before ← loadPath before path
  before := openWay before (placeOf temporary.text)
  let machine : Machine :=
    { cwd, temporary, environment, searchPath := [], execute := fun _ _ => .error .notFound }
  let program : Program := ⟨machine, fun _ => .error .requestFailed, 1, fun _ => false⟩
  let (console, result) := (program.run i).run ⟨⟨before, [], 0⟩, ""⟩
  store before console.world.files
  IO.print console.printed
  match result with
  | .ok _ => pure 0
  | .error e =>
    IO.eprintln ("Error: " ++ e.message)
    pure 1

end ReviewMentor.Main

/-- Reads the command line and carries it out. -/
def main (words : List String) : IO UInt32 := do
  let environment ← ReviewMentor.Main.environment
  match ReviewMentor.Invocation.parse (environment.lookup "PINK_REVIEW_CONFIG") words with
  | .ok i => ReviewMentor.Main.carryOut i environment
  | .error .version =>
    IO.println ("pink-review " ++ ReviewMentor.version)
    pure 0
  | .error .help =>
    IO.println ReviewMentor.Main.usage
    pure 0
  | .error _ =>
    IO.eprintln ReviewMentor.Main.usage
    pure 2

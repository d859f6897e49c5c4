import ReviewMentor.Cli.Arguments
import ReviewMentor.Cli.Display
import ReviewMentor.Json.Printer
import ReviewMentor.Service.Routes

/-!
# Commands

What the commands do. A command prints as it goes, so what was printed before a failure stays.
-/

namespace ReviewMentor

/-- Why a command fails. -/
inductive CommandError where
  | settings (cause : SettingsError)
  | noSuchPath (path : Path)
  | unreadable (path : Path)
  | unpackable (path : Path)
  | root (cause : RootError)
  | configs
  | analyzersMissing (count : Nat)
  | sessions (cause : RootBlocked)
  /-- The service cannot listen at an address. -/
  | unbound (address : String)
deriving DecidableEq, Repr

/-- What is said about a command that fails. -/
def CommandError.message : CommandError → String
  | settings e => e.message
  | noSuchPath path => "Path does not exist: " ++ path.text
  | unreadable path => "Failed to read " ++ path.text
  | unpackable path => "Failed to unpack " ++ path.text
  | root e => e.message
  | configs => "Failed to render analyzer configs"
  | analyzersMissing count => toString count ++ " analyzer(s) missing"
  | sessions e => e.message
  | unbound address => "Failed to bind " ++ address

/-- The world, and what was printed. -/
structure Console where
  world : World
  printed : String

/-- Work of a command; what was printed and changed before a failure stays. -/
abbrev CommandWork (α : Type) := ExceptT CommandError (StateM Console) α

/-- What commands work with. -/
structure Program where
  machine : Machine
  send : Transport
  /-- The number in the names of files that are being written. -/
  writer : Nat
  /-- Whether the service can listen at an address. -/
  canListen : String → Bool

namespace CommandWork

variable {ε α : Type}

/-- Runs work of a command: the console after it, and what came out. -/
def run (w : CommandWork α) (c : Console) : Console × Except CommandError α :=
  let (result, c) := StateT.run (ExceptT.run w) c
  (c, result)

/-- Prints a text. -/
def print (text : String) : CommandWork Unit :=
  modify fun c => { c with printed := c.printed ++ text }

/-- Work in the world. -/
def inWorld (account : ε → CommandError) (w : Work ε α) : CommandWork α :=
  ExceptT.mk fun c =>
    let (world, result) := w.run c.world
    (result.mapError account, { c with world })

/-- Work on files. -/
def onFiles (account : ε → CommandError) (w : Disk ε α) : CommandWork α :=
  inWorld account (Work.onFiles w)

/-- The files as they are now. -/
def files : CommandWork FileTree := do
  pure (← get).world.files

end CommandWork

namespace Program

/-- What runs the analyzers. -/
def pipeline (p : Program) (s : Settings) : Pipeline :=
  ⟨⟨s.tools, s.tools.configPath p.machine.temporary, p.writer⟩, p.machine⟩

/-- Reviews the project in a directory. -/
def analyzeDirectory (p : Program) (s : Settings) (root : Path) (level : Level) :
    CommandWork Review := do
  let (review, _) ← CommandWork.inWorld .root ((p.pipeline s).analyze root level)
  pure review

/-- Whether a path is that of an archive. -/
def isArchive (p : Program) (t : FileTree) (path : Path) : Bool :=
  path.extension?.any (fun e => e.toLower = "zip") && t.isFile p.machine.cwd path

/-- Reviews the project in an archive, in a session of its own that is removed afterwards. -/
def analyzeArchive (p : Program) (s : Settings) (path : Path) (level : Level) :
    CommandWork Review := do
  let start := p.machine.cwd
  let data ← CommandWork.onFiles (fun _ => .unreadable path)
    (Disk.ask fun t => t.readBytes start path)
  let store : SessionStore :=
    .empty (s.sessions.rootPath p.machine.temporary) s.sessions.namePrefix start
  let c ← get
  let (place, created) :=
    (SessionWork.createFromArchive data none).run ⟨store, c.world.files⟩
  set { c with world := { c.world with files := place.files } }
  match created with
  | .error _ => throw (.unpackable path)
  | .ok session =>
    let (c, result) := (p.analyzeDirectory s session.directory level).run (← get)
    let (place, _) := (SessionWork.cleanup session.id).run ⟨place.sessions, c.world.files⟩
    set { c with world := { c.world with files := place.files } }
    ExceptT.mk (pure result)

/-- Reviews a project and shows the review. -/
def analyze (p : Program) (s : Settings) (path : Path) (level : Level) (format : Format) :
    CommandWork Unit := do
  let start := (← get).world.clock
  let t ← CommandWork.files
  let review ←
    if p.isArchive t path then p.analyzeArchive s path level
    else do
      let root ← CommandWork.onFiles (fun _ => .noSuchPath path)
        (Disk.ask fun t => t.canonical p.machine.cwd path)
      p.analyzeDirectory s root level
  let millis := (← get).world.clock - start
  CommandWork.print (match format with
    | .json => review.view.pretty ++ "\n"
    | .text => review.display path.text millis)

/-- Looks whether an analyzer is there. -/
def checkAnalyzer (p : Program) (s : Settings) (a : Analyzer) : CommandWork Bool := do
  let program := s.tools.program a
  let found ← CommandWork.inWorld nofun
    (Work.ofState (p.machine.isInstalled program) : Work Empty Bool)
  CommandWork.print
    (if found then "✓ " ++ a.name ++ ": " ++ program ++ "\n"
    else "✗ " ++ a.name ++ ": '" ++ program ++ "' not found on PATH (pip install " ++ a.name ++
      ")\n")
  pure found

/-- What is said about the model that writes explanations. -/
def describeModel (s : AiSettings) : String :=
  match Client.ofSettings s with
  | .ok (some client) => "✓ AI explanations: " ++ s.backend ++ " (" ++ client.model ++ ")\n"
  | .ok none => "○ AI explanations: disabled in config\n"
  | .error e =>
    "○ AI explanations: off (" ++ e.message ++ ")\n  Built-in templates will be used instead\n"

/-- Looks whether everything is there that the program needs. -/
def doctor (p : Program) (s : Settings) : CommandWork Unit := do
  CommandWork.print "🩺 pink-review doctor\n\n"
  let found ← Analyzer.all.mapM (p.checkAnalyzer s)
  CommandWork.print (describeModel s.ai ++
    "○ Session directory: " ++ (s.sessions.rootPath p.machine.temporary).text ++ "\n" ++
    "○ Profile directory: " ++ s.profiles ++ "\n")
  match found.count false with
  | 0 => CommandWork.print "\n✅ All checks passed!\n"
  | missing => throw (.analyzersMissing missing)

/-- Shows how the analyzers are configured. -/
def debugConfig (p : Program) (s : Settings) : CommandWork Unit := do
  let configs ← CommandWork.onFiles (fun _ => .configs)
    ((p.pipeline s).invoker.snapshot p.machine.cwd)
  CommandWork.print (String.join (configs.map fun c =>
    "# " ++ c.1 ++ "\n" ++ Text.trimEnd c.2 ++ "\n\n"))

/-- Writes the example of a settings file. -/
def writeExample (p : Program) (path : Path) : CommandWork Unit := do
  if ← CommandWork.onFiles .settings (Settings.writeExample p.machine.cwd path) then
    CommandWork.print ("✓ Created " ++ path.text ++
      "\n\nEdit it to change analyzer rules, tool paths or the AI backend.\n")
  else CommandWork.print ("✓ Config already exists at " ++ path.text ++ "\n")

/-- Sets the service up and gets ready to listen. -/
def serve (p : Program) (s : Settings) (bind : Option String) :
    CommandWork (Service × SessionStore) := do
  let address := bind.getD s.server.bind
  let s := { s with server := { s.server with bind := address } }
  let service ← CommandWork.onFiles .sessions (Service.start s p.machine p.send p.writer)
  if !p.canListen address then throw (.unbound address)
  pure service

/-- Carries an invocation out. A service that is set up is handed back. -/
def run (p : Program) (i : Invocation) : CommandWork (Option (Service × SessionStore)) := do
  match i.command with
  | .init path =>
    p.writeExample path
    pure none
  | command =>
    let s ← CommandWork.onFiles .settings (Disk.ask (Settings.load p.machine i.config))
    match command with
    | .serve bind => return some (← p.serve s bind)
    | .analyze path level format => p.analyze s path level format
    | .doctor => p.doctor s
    | .debugConfig => p.debugConfig s
    | .init _ => pure ()
    pure none

end Program

end ReviewMentor

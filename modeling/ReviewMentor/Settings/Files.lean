import ReviewMentor.Files.Disk
import ReviewMentor.Fix
import ReviewMentor.Machine.World
import ReviewMentor.Settings.Basic

/-!
# Settings files

Where settings files are looked for, and the example of one that the program writes. A file that is
named must be there; one that is only looked for may be missing.
-/

namespace ReviewMentor

/-- Why settings cannot be read or an example cannot be written. -/
inductive SettingsError where
  | unreadable (path : Path)
  | invalid (path : Path)
  | noDirectory (path : Path)
  | unwritable (path : Path)
deriving DecidableEq, Repr

/-- What is said about settings that cannot be read or written. -/
def SettingsError.message : SettingsError → String
  | unreadable path => "Failed to read config file " ++ path.text
  | invalid path => "Invalid config file " ++ path.text
  | noDirectory path => "Failed to create " ++ path.text
  | unwritable path => "Failed to write " ++ path.text

namespace Settings

/-- The name of the settings file of a project. -/
def localFile : String := "pink-review.toml"

/-- The lines of the example of a settings file. -/
def exampleLines : List String := [
    "# pink-review configuration",
    "",
    "[server]",
    "# bind = \"127.0.0.1:8000\"",
    "# cors_origins = [\"http://localhost:3000\"]",
    "# shutdown_cleanup_secs = 5",
    "",
    "[sessions]",
    "# root = \"/var/tmp/pink-review\"",
    "",
    "[pipeline]",
    "# timeout_secs = 900",
    "",
    "[tools]",
    "# timeout_secs = 300",
    "# config_dir = \"/tmp/pink-coded-config\"",
    "",
    "# Per-tool overrides",
    "# [tools.ruff]",
    "# program = \"/opt/venv/bin/ruff\"",
    "# success_codes = [0, 1]",
    "",
    "# [tools.rules.ruff]",
    "# select = [\"E\", \"F\", \"W\", \"B\", \"I\", \"UP\", \"D\"]",
    "# ignore = [\"E501\", \"D203\", \"D212\"]",
    "",
    "[ai]",
    "# backend = \"deepseek\"   # or \"openai\", \"ollama\"",
    "# api_key = \"sk-...\"     # or set DEEPSEEK_API_KEY",
    "# model = \"deepseek-coder\"",
    "# api_url = \"http://gpu-box:11434/v1/chat/completions\"",
    "# enabled = true",
    "",
    "[profiles]",
    "# dir = \"user_profiles\""]

/-- The example of a settings file: it only says what it could say. -/
def exampleText : String :=
  Text.join "\n" exampleLines ++ "\n"

/-- The settings that a file says. -/
def ofFile (start : Place) (path : Path) (t : FileTree) : Except SettingsError Settings :=
  match t.readText start path with
  | .error _ => .error (.unreadable path)
  | .ok text => match parse? text with
    | some s => .ok s
    | none => .error (.invalid path)

/-- The settings file of the user. -/
def userFile? (lookup : String → Option String) : Option Path :=
  let absolute? (name : String) : Option Path :=
    ((lookup name).map Path.mk).filter Path.isAbsolute
  let directory? : Option Path := match absolute? "XDG_CONFIG_HOME" with
    | some p => some p
    | none => (absolute? "HOME").map fun home => home.child ".config"
  directory?.map fun d => (d.child "pink-review").child "config.toml"

/-- The settings file that is found where none is named. -/
def discover? (m : Machine) (t : FileTree) : Option Path :=
  if t.isFile m.cwd ⟨localFile⟩ then some ⟨localFile⟩
  else (userFile? m.environmentValue).filter fun p => t.isFile m.cwd p

/-- The settings that files and the environment say. -/
def load (m : Machine) (named? : Option Path) (t : FileTree) : Except SettingsError Settings := do
  let s ← match named?.orElse fun _ => discover? m t with
    | some path => ofFile m.cwd path t
    | none => pure standard
  pure (s.applyEnvironment m.environmentValue)

/-- Writes the example of a settings file, unless something is there. -/
def writeExample (start : Place) (path : Path) : Disk SettingsError Bool := do
  if ← Disk.look fun t => t.holds start path then pure false
  else
    match path.parent? with
    | some parent =>
      Disk.of fun t =>
        let (t, result) := t.makeDirectories start parent
        (t, result.mapError fun _ => .noDirectory parent)
    | none => pure ()
    Disk.change fun t => (t.writeText start path exampleText).mapError fun _ => .unwritable path
    pure true

end Settings

end ReviewMentor

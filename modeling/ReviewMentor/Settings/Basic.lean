import ReviewMentor.Path
import ReviewMentor.Settings.Rules
import ReviewMentor.Toml.Document

/-!
# Settings

How the program is set up. Every setting has a value where nothing is said; a settings file changes
some of them, and variables of the environment have the last word.
-/

namespace ReviewMentor

/-- Settings of the service. -/
structure ServerSettings where
  bind : String
  origins : List String
  cleanupSeconds : Nat
  /-- The largest upload that is accepted, in bytes. -/
  uploadLimit : Nat
deriving DecidableEq, Repr

/-- Settings of sessions. -/
structure SessionSettings where
  root : Option String
  namePrefix : String
deriving DecidableEq, Repr

/-- Settings of one analyzer; what is not set has its usual value. -/
structure ToolSettings where
  program : Option String
  successCodes : Option (List Int)
  timeoutSeconds : Option Nat
deriving DecidableEq, Repr

/-- Settings of all analyzers. -/
structure ToolsSettings where
  timeoutSeconds : Nat
  configDirectory : Option String
  ruff : ToolSettings
  pylint : ToolSettings
  bandit : ToolSettings
  radon : ToolSettings
  rules : LintRules
deriving DecidableEq, Repr

/-- Settings of the model that writes explanations. -/
structure AiSettings where
  enabled : Bool
  backend : String
  model : Option String
  url : Option String
  key : Option String
  /-- In single precision; there is none if it is not finite. -/
  temperature : Option Decimal.Binary
  tokenLimit : Nat
  timeoutSeconds : Nat
deriving DecidableEq, Repr

/-- All settings. -/
structure Settings where
  server : ServerSettings
  sessions : SessionSettings
  /-- Seconds that one analysis may take. -/
  analysisSeconds : Nat
  tools : ToolsSettings
  ai : AiSettings
  /-- The directory of the profiles. -/
  profiles : String
deriving DecidableEq, Repr

/-- Reads a natural number of 64 bits. -/
def readCount : Json.Decode Nat := Json.Draft.natural 64

namespace ServerSettings

/-- The settings where nothing else is said. -/
def standard : ServerSettings :=
  ⟨"127.0.0.1:8000", ["http://localhost:3000"], 5, 64 * 1024 * 1024⟩

/-- The fields of written settings. -/
def record : Json.Record ServerSettings :=
  (Json.Record.start ServerSettings.mk)
    |>.defaults "bind" Json.Draft.text standard.bind
    |>.defaults "cors_origins" readTexts standard.origins
    |>.defaults "shutdown_cleanup_secs" readCount standard.cleanupSeconds
    |>.defaults "max_upload_bytes" readCount standard.uploadLimit

/-- Writes settings. -/
def toJson (s : ServerSettings) : Json :=
  .object [("bind", .string s.bind), ("cors_origins", .strings s.origins),
    ("shutdown_cleanup_secs", .nat s.cleanupSeconds), ("max_upload_bytes", .nat s.uploadLimit)]

end ServerSettings

namespace SessionSettings

/-- The settings where nothing else is said. -/
def standard : SessionSettings := ⟨none, "pink-coded-"⟩

/-- The fields of written settings. -/
def record : Json.Record SessionSettings :=
  (Json.Record.start SessionSettings.mk)
    |>.defaults "root" (Json.Draft.nullable Json.Draft.text) none
    |>.defaults "prefix" Json.Draft.text standard.namePrefix

/-- The directory of the sessions. -/
def rootPath (s : SessionSettings) (temporary : Path) : Path :=
  match s.root with
  | some root => ⟨root⟩
  | none => temporary

/-- Writes settings. -/
def toJson (s : SessionSettings) : Json :=
  .object [("root", .optional .string s.root), ("prefix", .string s.namePrefix)]

end SessionSettings

namespace ToolSettings

/-- The settings where nothing else is said. -/
def standard : ToolSettings := ⟨none, none, none⟩

/-- The fields of written settings. -/
def record : Json.Record ToolSettings :=
  (Json.Record.start ToolSettings.mk)
    |>.defaults "program" (Json.Draft.nullable Json.Draft.text) none
    |>.defaults "success_codes"
      (Json.Draft.nullable (Json.Draft.list (Json.Draft.whole (-2 ^ 31) (2 ^ 31 - 1)))) none
    |>.defaults "timeout_secs" (Json.Draft.nullable readCount) none

/-- Writes settings. -/
def toJson (s : ToolSettings) : Json :=
  .object [("program", .optional .string s.program),
    ("success_codes", .optional (fun codes => .array (codes.map .int)) s.successCodes),
    ("timeout_secs", .optional .nat s.timeoutSeconds)]

end ToolSettings

namespace ToolsSettings

/-- The settings where nothing else is said. -/
def standard : ToolsSettings :=
  ⟨300, none, .standard, .standard, .standard, .standard, .standard⟩

/-- The fields of written settings. -/
def record (surplus : Bool) : Json.Record ToolsSettings :=
  let tool := ToolSettings.record.readWith surplus
  (Json.Record.start ToolsSettings.mk)
    |>.defaults "timeout_secs" readCount standard.timeoutSeconds
    |>.defaults "config_dir" (Json.Draft.nullable Json.Draft.text) none
    |>.defaults "ruff" tool .standard
    |>.defaults "pylint" tool .standard
    |>.defaults "bandit" tool .standard
    |>.defaults "radon" tool .standard
    |>.defaults "rules" ((LintRules.record surplus).readWith surplus) .standard

/-- Writes settings. -/
def toJson (s : ToolsSettings) : Json :=
  .object [("timeout_secs", .nat s.timeoutSeconds),
    ("config_dir", .optional .string s.configDirectory), ("ruff", s.ruff.toJson),
    ("pylint", s.pylint.toJson), ("bandit", s.bandit.toJson), ("radon", s.radon.toJson),
    ("rules", s.rules.toJson)]

/-- The settings of one analyzer. -/
def tool (s : ToolsSettings) : Analyzer → ToolSettings
  | .ruff => s.ruff
  | .pylint => s.pylint
  | .bandit => s.bandit
  | .radon => s.radon

/-- Changes the settings of one analyzer. -/
def setTool (s : ToolsSettings) (t : ToolSettings) : Analyzer → ToolsSettings
  | .ruff => { s with ruff := t }
  | .pylint => { s with pylint := t }
  | .bandit => { s with bandit := t }
  | .radon => { s with radon := t }

/-- The program of an analyzer. -/
def program (s : ToolsSettings) (a : Analyzer) : String :=
  (s.tool a).program.getD a.name

/-- The seconds that an analyzer may run; zero means any time. -/
def timeout (s : ToolsSettings) (a : Analyzer) : Nat :=
  (s.tool a).timeoutSeconds.getD s.timeoutSeconds

/-- The exit codes that mean a completed run of an analyzer. -/
def successCodes (s : ToolsSettings) (a : Analyzer) : List Int :=
  (s.tool a).successCodes.getD a.successCodes

/-- The directory of the files for the analyzers. -/
def configPath (s : ToolsSettings) (temporary : Path) : Path :=
  match s.configDirectory with
  | some d => ⟨d⟩
  | none => temporary.child "pink-coded-config"

end ToolsSettings

namespace AiSettings

/-- The nearest number to seven tenths in single precision. -/
def standardTemperature : Decimal.Binary := ⟨false, 11744051, -24⟩

/-- The settings where nothing else is said. -/
def standard : AiSettings :=
  ⟨true, "deepseek", none, none, none, some standardTemperature, 1000, 30⟩

/-- The fields of written settings. -/
def record : Json.Record AiSettings :=
  (Json.Record.start AiSettings.mk)
    |>.defaults "enabled" Json.Draft.truth standard.enabled
    |>.defaults "backend" Json.Draft.text standard.backend
    |>.defaults "model" (Json.Draft.nullable Json.Draft.text) none
    |>.defaults "api_url" (Json.Draft.nullable Json.Draft.text) none
    |>.defaults "api_key" (Json.Draft.nullable Json.Draft.text) none
    |>.defaults "temperature" Json.Draft.single standard.temperature
    |>.defaults "max_tokens" (Json.Draft.natural 32) standard.tokenLimit
    |>.defaults "timeout_secs" readCount standard.timeoutSeconds

/-- Reads settings from JSON. -/
def read : Json.Decode AiSettings := record.read

/-- A number in single precision as the number with its shortest digits. -/
def singleToJson (b : Decimal.Binary) : Json :=
  let d := b.shortest .single
  let value? := match d.exponent with
    | .ofNat k => Decimal.Binary.ofRatio? .double b.negative (d.digits * 10 ^ k) 1
    | .negSucc k => Decimal.Binary.ofRatio? .double b.negative d.digits (10 ^ (k + 1))
  .optional (fun value => .number (.real value)) value?

/-- Writes settings. -/
def toJson (s : AiSettings) : Json :=
  .object [("enabled", .bool s.enabled), ("backend", .string s.backend),
    ("model", .optional .string s.model), ("api_url", .optional .string s.url),
    ("api_key", .optional .string s.key), ("temperature", .optional singleToJson s.temperature),
    ("max_tokens", .nat s.tokenLimit), ("timeout_secs", .nat s.timeoutSeconds)]

end AiSettings

namespace Settings

/-- The settings where nothing else is said. -/
def standard : Settings := ⟨.standard, .standard, 900, .standard, .standard, "user_profiles"⟩

/-- The field of a group of settings that has only one. -/
def only (name : String) (read : Json.Decode α) (value : α) : Json.Record α :=
  (Json.Record.start id).defaults name read value

/-- The fields of written settings. -/
def record (surplus : Bool) : Json.Record Settings :=
  (Json.Record.start Settings.mk)
    |>.defaults "server" (ServerSettings.record.readWith surplus) .standard
    |>.defaults "sessions" (SessionSettings.record.readWith surplus) .standard
    |>.defaults "pipeline"
      ((only "timeout_secs" readCount standard.analysisSeconds).readWith surplus)
      standard.analysisSeconds
    |>.defaults "tools" ((ToolsSettings.record surplus).readWith surplus) .standard
    |>.defaults "ai" (AiSettings.record.readWith surplus) .standard
    |>.defaults "profiles" ((only "dir" Json.Draft.text standard.profiles).readWith surplus)
      standard.profiles

/-- Writes settings. -/
def toJson (s : Settings) : Json :=
  .object [("server", s.server.toJson), ("sessions", s.sessions.toJson),
    ("pipeline", .object [("timeout_secs", .nat s.analysisSeconds)]), ("tools", s.tools.toJson),
    ("ai", s.ai.toJson), ("profiles", .object [("dir", .string s.profiles)])]

/-- The settings that the text of a settings file says. -/
def parse? (text : String) : Option Settings := do
  let table ← Toml.parse? text
  ((record true).readWith true table.toDraft).toOption

/-- The variable that holds the key of a backend. -/
def keyVariable? (backend : String) : Option String :=
  if backend = "openai" then some "OPENAI_API_KEY"
  else if backend = "ollama" then none
  else some "DEEPSEEK_API_KEY"

/-- The settings with what the environment says. -/
def applyEnvironment (lookup : String → Option String) (s : Settings) : Settings :=
  { s with
    server := { s.server with bind := (lookup "PINK_REVIEW_BIND").getD s.server.bind }
    sessions := { s.sessions with
      root := (lookup "PINK_REVIEW_SESSION_ROOT").orElse fun _ => s.sessions.root }
    profiles := (lookup "PINK_REVIEW_PROFILE_DIR").getD s.profiles
    ai := { s.ai with
      key := ((keyVariable? s.ai.backend).bind lookup).orElse fun _ => s.ai.key } }

end Settings

end ReviewMentor

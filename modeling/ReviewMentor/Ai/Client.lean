import ReviewMentor.Settings.Basic
import ReviewMentor.Text.Case

/-!
# Models that write explanations

The services that run models, and a client for one of them. How a request travels is no business of
the client: it is given a way to send one.
-/

namespace ReviewMentor

/-- A service that runs models. -/
inductive Backend where
  | deepSeek
  | openAi
  | ollama
deriving DecidableEq, Repr

/-- Why a model gives no answer. -/
inductive AiError where
  | missingKey (key : String)
  | unknownBackend (name : String)
  | requestFailed
deriving DecidableEq, Repr

/-- What is said about a model that gives no answer. -/
def AiError.message : AiError → String
  | missingKey key => "Missing API key: set " ++ key ++ " or [ai].api_key"
  | unknownBackend name => "Invalid configuration: unknown AI backend '" ++ name ++ "'"
  | requestFailed => "API request failed"

namespace Backend

/-- The name of a service as it is written. -/
def name : Backend → String
  | deepSeek => "deepseek"
  | openAi => "openai"
  | ollama => "ollama"

/-- All services. -/
def all : List Backend := [deepSeek, openAi, ollama]

/-- The service with a name, in any case and with blanks around it. -/
def parse (s : String) : Except AiError Backend :=
  let word := Text.lower (Text.trim s)
  match all.find? (·.name = word) with
  | some b => .ok b
  | none => .error (.unknownBackend word)

/-- The variable that holds the key of a service. -/
def keyVariable? : Backend → Option String
  | deepSeek => some "DEEPSEEK_API_KEY"
  | openAi => some "OPENAI_API_KEY"
  | ollama => none

/-- The model that is asked where none is set. -/
def defaultModel : Backend → String
  | deepSeek => "deepseek-coder"
  | openAi => "gpt-4o-mini"
  | ollama => "deepseek-coder:6.7b"

/-- Where a service is found where nothing else is set. -/
def defaultUrl : Backend → String
  | deepSeek => "https://api.deepseek.com/v1/chat/completions"
  | openAi => "https://api.openai.com/v1/chat/completions"
  | ollama => "http://localhost:11434/v1/chat/completions"

/-- Whether a service wants a key; a local one does not. -/
def needsKey (b : Backend) : Bool := b != ollama

end Backend

/-- Who speaks in a conversation. -/
inductive Role where
  | system
  | user
deriving DecidableEq, Repr

namespace Role

/-- The word for a speaker. -/
def name : Role → String
  | system => "system"
  | user => "user"

/-- Reads a speaker. -/
def read : Json.Decode Role :=
  Json.Draft.word fun s => [system, user].find? (·.name = s)

end Role

/-- Something said in a conversation. -/
structure Message where
  role : Role
  content : String
deriving DecidableEq, Repr

namespace Message

/-- Writes what was said. -/
def toJson (m : Message) : Json :=
  .object [("role", .string m.role.name), ("content", .string m.content)]

/-- Reads what was said. -/
def read : Json.Decode Message :=
  ((Json.Record.start Message.mk).needs ["role"] Role.read |>.needs ["content"] Json.Draft.text).read

end Message

/-- A client of a service. -/
structure Client where
  backend : Backend
  model? : Option String
  url? : Option String
  tokenLimit : Nat
  temperature : Option Decimal.Binary
  timeoutSeconds : Nat
  key : String
deriving DecidableEq, Repr

/-- What is sent to a service. -/
structure Request where
  url : String
  key : String
  model : String
  messages : List Message
  tokenLimit : Nat
  temperature : Option Decimal.Binary
deriving DecidableEq, Repr

namespace Client

/-- The model that is asked. -/
def model (c : Client) : String := c.model?.getD c.backend.defaultModel

/-- Where the service is found. -/
def url (c : Client) : String := c.url?.getD c.backend.defaultUrl

/-- What stands for the key of a service that wants none. -/
def localKey : String := "ollama"

/-- The client that settings describe; there is none if they switch it off. A service that wants a
key is not used without one. -/
def ofSettings (s : AiSettings) : Except AiError (Option Client) := do
  if !s.enabled then return none
  let backend ← Backend.parse s.backend
  let client (key : String) : Client :=
    { backend, model? := s.model, url? := s.url, tokenLimit := s.tokenLimit
      temperature := s.temperature, timeoutSeconds := s.timeoutSeconds, key }
  if !backend.needsKey then return some (client localKey)
  match s.key.filter fun k => !Text.isAllBlank k with
  | some key => return some (client key)
  | none => throw (.missingKey (backend.keyVariable?.getD ""))

/-- The request that asks the model for an answer. -/
def request (c : Client) (messages : List Message) (system : Option String) : Request :=
  { url := c.url, key := c.key, model := c.model
    messages := (system.map fun s => ⟨.system, s⟩).toList ++ messages
    tokenLimit := c.tokenLimit, temperature := c.temperature }

end Client

/-- A way to send requests: the text of the answer, or why there is none. -/
abbrev Transport := Request → Except AiError String

end ReviewMentor

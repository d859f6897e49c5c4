import ReviewMentor.Level
import ReviewMentor.Settings.Files

/-!
# The command line

What the words of a command line mean. Words are read from the left. The value of an option is only
looked at when it is settled: at once if it is attached to the option, else as soon as another
option or value follows. So of several faults the first one that is noticed counts, and that need
not be the leftmost one.
-/

namespace ReviewMentor

/-- Why a command line is not carried out; asking for help is one of the reasons. -/
inductive UsageError where
  | help
  | version
  /-- There is nothing on the command line. -/
  | nothingGiven
  | noCommand
  | unknownCommand
  | unknownArgument
  /-- A value is missing, empty or none of those that are possible. -/
  | badValue
  /-- A value stands for nothing. -/
  | failedCheck
  /-- An option stands twice. -/
  | repeated
  /-- A value is attached to an option that takes none. -/
  | surplusValue
deriving DecidableEq, Repr

/-- What a value on the command line is for. -/
inductive Parameter where
  | logLevel
  | config
  | bind
  | level
  | format
  /-- The only value without an option. -/
  | target
deriving DecidableEq, Repr

namespace Parameter

/-- The long name of an option. -/
def long? : Parameter → Option String
  | logLevel => some "log-level"
  | config => some "config"
  | bind => some "bind"
  | level => some "level"
  | format => some "format"
  | target => none

/-- The letter of an option. -/
def short? : Parameter → Option Char
  | level => some 'l'
  | format => some 'f'
  | _ => none

/-- The words for how much is logged. -/
def logLevels : List String := ["error", "warn", "info", "debug", "trace"]

/-- The words for how a review is shown. -/
def formats : List String := ["text", "json"]

/-- Accepts a value. -/
def check (p : Parameter) (value : String) : Except UsageError Unit :=
  let demand (e : UsageError) (ok : Bool) : Except UsageError Unit := if ok then .ok () else .error e
  match p with
  | logLevel => demand .badValue (logLevels.contains value)
  | format => demand .badValue (formats.contains value)
  | config | target => demand .badValue (value ≠ "")
  | level => demand .failedCheck (Level.parse value).toBool
  | bind => .ok ()

end Parameter

/-- What has been read: the settled values, and the value or the option without a value that waits
to be settled. -/
structure Reading where
  given : List (Parameter × String)
  pending : Option (Parameter × Option String)
deriving DecidableEq, Repr

namespace Reading

/-- Nothing read. -/
def empty : Reading := ⟨[], none⟩

/-- The value of a parameter. -/
def value? (r : Reading) (p : Parameter) : Option String :=
  r.given.lookup p

/-- Settles a value. -/
def accept (r : Reading) (p : Parameter) : Option String → Except UsageError Reading
  | none => .error .badValue
  | some value =>
    if (r.value? p).isSome then .error .repeated
    else (p.check value).map fun _ => { r with given := r.given ++ [(p, value)] }

/-- Settles what waits. -/
def settle (r : Reading) : Except UsageError Reading :=
  match r.pending with
  | none => .ok r
  | some (p, value?) => { r with pending := none }.accept p value?

/-- The option that waits for its value. -/
def awaiting? (r : Reading) : Option Parameter :=
  match r.pending with
  | some (p, none) => some p
  | _ => none

/-- Whether there is a value for a parameter, settled or not. -/
def has (r : Reading) (p : Parameter) : Bool :=
  (r.value? p).isSome || (r.pending.map (·.1) == some p)

end Reading

/-- What an option asks for. -/
inductive Demand where
  | help
  | version
  | value (p : Parameter)
deriving DecidableEq, Repr

/-- What one part of the command line understands. -/
structure Grammar where
  options : List Parameter
  takesTarget : Bool
  hasVersion : Bool
  commands : List String

namespace Grammar

/-- What a long option asks for. -/
def longOption? (g : Grammar) (name : String) : Option Demand :=
  if name = "help" then some .help
  else if name = "version" && g.hasVersion then some .version
  else (g.options.find? fun p => p.long? = some name).map .value

/-- What an option letter asks for. -/
def shortOption? (g : Grammar) (letter : Char) : Option Demand :=
  if letter = 'h' then some .help
  else if letter = 'V' && g.hasVersion then some .version
  else (g.options.find? fun p => p.short? = some letter).map .value

/-- Answers a demand, with the value that is attached to it. -/
def meet (r : Reading) (attached? : Option String) : Demand → Except UsageError Reading
  | .help => do
    let _ ← r.settle
    throw .help
  | .version => do
    let _ ← r.settle
    throw .version
  | .value p => do
    let r ← r.settle
    match attached? with
    | some value => r.accept p (some value)
    | none => pure { r with pending := some (p, none) }

/-- Reads a long option, without its dashes. -/
def readLong (g : Grammar) (r : Reading) (option : List Char) : Except UsageError Reading :=
  let name := option.takeWhile (· ≠ '=')
  let attached? := match option.drop name.length with
    | _ :: value => some (String.ofList value)
    | [] => none
  match g.longOption? (String.ofList name), attached? with
  | none, _ => .error .unknownArgument
  | some .help, some _ | some .version, some _ => .error .surplusValue
  | some demand, _ => meet r attached? demand

/-- Reads option letters; the first one that takes a value takes what follows it. -/
def readShort (g : Grammar) (r : Reading) : List Char → Except UsageError Reading
  | [] => .ok r
  | letter :: rest =>
    match g.shortOption? letter with
    | none => .error .unknownArgument
    | some demand =>
      let attached? := match rest with
        | [] => none
        | '=' :: value | value => some (String.ofList value)
      meet r attached? demand

/-- Reads a word that is neither an option nor the value of one. Where no such word has a place, it
is refused before what is pending is looked at. -/
def readValue (g : Grammar) (r : Reading) (onlyValues : Bool) (word : String) :
    Except UsageError Reading :=
  if g.takesTarget && !r.has .target then do
    let settled ← r.settle
    pure { settled with pending := some (.target, some word) }
  else if g.commands.isEmpty || (onlyValues && g.commands.contains word) then
    .error .unknownArgument
  else .error .unknownCommand

/-- Reads words up to a command, which is handed on with the words after it. After two dashes there
are only values. -/
def read (g : Grammar) : Bool → Reading → List String →
    Except UsageError (Reading × Option (String × List String))
  | _, r, [] => .ok (r, none)
  | true, r, word :: rest => do read g true (← g.readValue r true word) rest
  | false, r, word :: rest => do
    if r.awaiting?.isNone && g.commands.contains word then return (r, some (word, rest))
    match word.toList, r.awaiting? with
    | ['-', '-'], _ => read g true r rest
    | '-' :: '-' :: option, _ => read g false (← g.readLong r option) rest
    | '-' :: letter :: letters, _ => read g false (← g.readShort r (letter :: letters)) rest
    | _, some p => read g false { r with pending := some (p, some word) } rest
    | _, none => read g false (← g.readValue r false word) rest

/-- Settles what is left; a settings file that the environment names instead is looked at, too. -/
def finish (r : Reading) (configVariable? : Option String) : Except UsageError Reading := do
  let r ← r.settle
  match configVariable? with
  | some value => if !r.has .config then Parameter.config.check value
  | none => pure ()
  pure r

end Grammar

/-- How a review is shown. -/
inductive Format where
  | text
  | json
deriving DecidableEq, Repr

/-- What the program is told to do. -/
inductive Command where
  | serve (bind : Option String)
  | analyze (path : Path) (level : Level) (format : Format)
  | doctor
  | debugConfig
  | init (path : Path)
deriving DecidableEq, Repr

/-- A command with the options that every command has. -/
structure Invocation where
  logLevel : String
  config : Option Path
  command : Command
deriving DecidableEq, Repr

namespace Invocation

/-- The options of every command. -/
def sharedOptions : List Parameter := [.logLevel, .config]

/-- The names of the commands. -/
def commandNames : List String := ["serve", "analyze", "doctor", "debug-config", "init", "help"]

/-- What is understood before a command. -/
def outerGrammar : Grammar := ⟨sharedOptions, false, true, commandNames⟩

/-- What is understood after a command. -/
def innerGrammar (command : String) : Grammar :=
  let own (options : List Parameter) (takesTarget : Bool) : Grammar :=
    ⟨options ++ sharedOptions, takesTarget, false, []⟩
  if command = "serve" then own [.bind] false
  else if command = "analyze" then own [.level, .format] true
  else own [] (command = "init")

/-- The command with the given values. -/
def commandOf (name : String) (r : Reading) : Command :=
  if name = "serve" then .serve (r.value? .bind)
  else if name = "analyze" then
    .analyze ⟨(r.value? .target).getD "."⟩
      (((r.value? .level).bind fun word => (Level.parse word).toOption).getD .intermediate)
      (if r.value? .format = some "json" then .json else .text)
  else if name = "doctor" then .doctor
  else if name = "debug-config" then .debugConfig
  else .init ⟨(r.value? .target).getD Settings.localFile⟩

/-- What comes of asking for help about words: there is help about single commands. -/
def helpAbout : List String → UsageError
  | [] => .help
  | [word] => if commandNames.contains word then .help else .unknownCommand
  | _ => .unknownCommand

/-- Reads a command line. The settings file may also be named by a variable of the environment. -/
def parse (configVariable? : Option String) (words : List String) :
    Except UsageError Invocation := do
  let (outer, entered?) ← outerGrammar.read false .empty words
  match entered? with
  | none =>
    let outer ← Grammar.finish outer configVariable?
    throw (if outer.given.isEmpty && configVariable?.isNone then .nothingGiven else .noCommand)
  | some (name, rest) =>
    if name = "help" then throw (helpAbout rest)
    let (inner, _) ← (innerGrammar name).read false .empty rest
    let inner ← Grammar.finish inner configVariable?
    let outer ← Grammar.finish outer configVariable?
    let shared (p : Parameter) : Option String := (inner.value? p).orElse fun _ => outer.value? p
    pure
      { logLevel := (shared .logLevel).getD "info"
        config := ((shared .config).orElse fun _ => configVariable?).map Path.mk
        command := commandOf name inner }

end Invocation

end ReviewMentor

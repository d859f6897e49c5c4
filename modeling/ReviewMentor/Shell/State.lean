import ReviewMentor.Shell.Pattern
import ReviewMentor.Shell.Syntax

/-!
# What a shell script works on

Files, variables, functions and streams. What is printed goes to a sink: a buffer, a file, or
nowhere, so that redirections keep the order in which things were printed.
-/

namespace ReviewMentor.Shell

/-- Whether a script goes on. -/
inductive Flow where
  | running
  /-- The innermost loop is left, or begins its next round. -/
  | leftLoop (again : Bool)
  /-- The innermost function is left. -/
  | returned
  | ended (code : Nat)
  | killed
deriving DecidableEq, Repr

/-- Where a stream goes. -/
inductive Sink where
  | buffer (n : Nat)
  | file (place : Place)
  | nowhere
deriving DecidableEq, Repr

/-- What a script works on. -/
structure State where
  files : FileTree
  cwd : Place
  bindings : List (String × String)
  functions : List (String × Script)
  /-- The name of the script and its arguments. -/
  arguments : List String
  stdin : ByteArray
  buffers : Array ByteArray
  stdout : Sink
  stderr : Sink
  status : Nat
  /-- The line of the command that runs. -/
  line : Nat
  /-- Whether a command that fails ends the script. -/
  isStrict : Bool
  millis : Nat
  flow : Flow

namespace State

/-- Adds bytes to a file. -/
def append (files : FileTree) (place : Place) (bytes : ByteArray) : FileTree :=
  match files.lookup? place with
  | some (.file content mode) => files.set place (.file (content ++ bytes) mode)
  | _ => files

/-- Sends bytes to a sink. -/
def send (s : State) (sink : Sink) (bytes : ByteArray) : State :=
  match sink with
  | .buffer n => { s with buffers := s.buffers.modify n (· ++ bytes) }
  | .file place => { s with files := append s.files place bytes }
  | .nowhere => s

/-- Prints bytes. -/
def print (s : State) (bytes : ByteArray) : State := s.send s.stdout bytes

/-- Prints a text. -/
def say (s : State) (text : String) : State := s.print text.toUTF8

/-- Prints a text about an error. -/
def complain (s : State) (text : String) : State := s.send s.stderr text.toUTF8

/-- Ends a command with a code. -/
def done (s : State) (status : Nat) : State := { s with status }

/-- Reports an error of the script itself, with its name and line. -/
def report (s : State) (text : String) : State :=
  s.complain (s.arguments.headD "" ++ ": " ++ toString s.line ++ ": " ++ text ++ "\n")

/-- The bytes in a buffer. -/
def bufferAt (s : State) (n : Nat) : ByteArray := (s.buffers[n]?).getD .empty

/-- Sets a variable. -/
def setVariable (s : State) (name value : String) : State :=
  { s with bindings := (name, value) :: s.bindings.filter (·.1 ≠ name) }

/-- Forgets a variable. -/
def unset (s : State) (name : String) : State :=
  { s with bindings := s.bindings.filter (·.1 ≠ name) }

/-- The number under which a script knows itself. -/
def ownNumber : String := "4711"

/-- The value of a variable or of a special name, if it has one. -/
def value? (s : State) (name : String) : Option String :=
  if name = "?" then some (toString s.status)
  else if name = "$" then some ownNumber
  else if name = "#" then some (toString (s.arguments.length - 1))
  else if name = "@" ∨ name = "*" then some (Text.join " " (s.arguments.drop 1))
  else match name.toNat? with
    | some n => s.arguments[n]?
    | none => s.bindings.lookup name

/-- The value of a variable or of a special name. -/
def value (s : State) (name : String) : String := (s.value? name).getD ""

/-- The shortest or longest way to cut a text, of those that a test accepts. -/
def cutting (accepts : List Char → List Char → Bool) (cs : List Char) (lengths : List Nat) :
    Option Nat :=
  lengths.find? fun n => accepts (cs.take n) (cs.drop n)

/-- A value without the part at one of its ends that a pattern accepts. -/
def trimmed (value : List Char) (pattern : Pattern) (atStart longest : Bool) : List Char :=
  let upward := List.range (value.length + 1)
  if atStart then
    match cutting (fun front _ => pattern.accepts front) value
        (if longest then upward.reverse else upward) with
    | some n => value.drop n
    | none => value
  else
    match cutting (fun _ back => pattern.accepts back) value
        (if longest then upward else upward.reverse) with
    | some n => value.take n
    | none => value

/-- The value of a name with an operator: another value for a name without one, its length, or a
part of it. -/
def evaluate (s : State) (expression : List Char) : String :=
  match expression with
  | ['#'] => s.value "#"
  | '#' :: name => toString (s.value (String.ofList name)).length
  | _ =>
    let special (c : Char) : Bool := c = '?' || c = '$' || c = '@' || c = '*' || c = '!'
    let length := match expression with
      | c :: _ => if special c then 1 else (expression.takeWhile isNameChar).length
      | [] => 0
    let name := String.ofList (expression.take length)
    let value? := s.value? name
    let cut (pattern : List Char) (atStart longest : Bool) : String :=
      String.ofList (trimmed (value?.getD "").toList (Pattern.wild pattern) atStart longest)
    match expression.drop length with
    | ':' :: '-' :: other => if value?.getD "" = "" then String.ofList other else value?.getD ""
    | '-' :: other => value?.getD (String.ofList other)
    | ':' :: '+' :: other => if value?.getD "" = "" then "" else String.ofList other
    | '+' :: other => if value?.isSome then String.ofList other else ""
    | '%' :: '%' :: pattern => cut pattern false true
    | '%' :: pattern => cut pattern false false
    | '#' :: '#' :: pattern => cut pattern true true
    | '#' :: pattern => cut pattern true false
    | _ => value?.getD ""

/-- The bytes at a path that a script reads. -/
def read (s : State) (name : String) : Except FileError ByteArray :=
  s.files.readBytes s.cwd ⟨name⟩

/-- The state in which a script starts. -/
def initial (files : FileTree) (cwd : Place) (environment : List (String × String))
    (arguments : List String) : State where
  files := files
  cwd := cwd
  bindings := ("PWD", (Path.ofNames cwd).text) :: environment
  functions := []
  arguments := arguments
  stdin := .empty
  buffers := #[.empty, .empty]
  stdout := .buffer 0
  stderr := .buffer 1
  status := 0
  line := 1
  isStrict := false
  millis := 0
  flow := .running

/-- How a script ended. -/
def ending (s : State) : Ending :=
  let code : Option Int := match s.flow with
    | .ended code => some code
    | .killed => none
    | _ => some s.status
  ⟨s.bufferAt 0, s.bufferAt 1, code, s.millis⟩

end State

end ReviewMentor.Shell

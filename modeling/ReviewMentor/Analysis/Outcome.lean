import ReviewMentor.Json.Numeral
import ReviewMentor.Machine.World
import ReviewMentor.Text.Blank
import ReviewMentor.Text.Utf8

/-!
# Runs of other programs

What comes of running a program: it comes to its end, cannot be started, takes too long, or is
stopped because the analysis is given up.
-/

namespace ReviewMentor

/-- What came of running a program. -/
inductive Outcome where
  | completed (stdout stderr : String) (code : Int)
  | failed (message : String)
  | timedOut (tool : String) (seconds : Nat)
  | cancelled (tool : String)
deriving DecidableEq, Repr

namespace Outcome

/-- What the program printed. -/
def stdout : Outcome → String
  | completed stdout _ _ => stdout
  | _ => ""

/-- What the program printed about errors. -/
def stderr : Outcome → String
  | completed _ stderr _ => stderr
  | _ => ""

/-- The exit code of a program that came to its end. -/
def code? : Outcome → Option Int
  | completed _ _ code => some code
  | _ => none

/-- Whether the program came to its end. -/
def isCompleted : Outcome → Bool
  | completed _ _ _ => true
  | _ => false

/-- Whether the program took too long. -/
def isTimedOut : Outcome → Bool
  | timedOut _ _ => true
  | _ => false

/-- Whether the program was stopped. -/
def isCancelled : Outcome → Bool
  | cancelled _ => true
  | _ => false

/-- Why the program did not come to its end. -/
def error? : Outcome → Option String
  | completed _ _ _ => none
  | failed message => some message
  | timedOut tool seconds => some (tool ++ " analysis timed out after " ++ toString seconds ++ "s")
  | cancelled tool => some (tool ++ " analysis was cancelled")

/-- What the program printed, if it is JSON. -/
def json? (o : Outcome) : Option Json :=
  if Text.isAllBlank o.stdout then none else Json.parse? o.stdout

end Outcome

/-- What is said about a program that could not be started. -/
def startFailure (tool : String) : FileError → String
  | .notFound => tool ++ " not found. Please install it first."
  | e => "Failed to run " ++ tool ++ ": " ++ e.message

/-- The exit code of a program that was killed. -/
def killedCode : Int := -1

namespace Machine

/-- Runs a command for a tool. A limit of no seconds means any time. -/
def runTool (m : Machine) (argv : List String) (tool : String) (seconds : Nat)
    (directory? : Option Path) (cancelled : Bool) : StateM World Outcome :=
  if argv.isEmpty then pure (.failed "Empty command")
  else if cancelled then pure (.cancelled tool)
  else do
    let limit? := if seconds = 0 then none else some (seconds * 1000)
    match ← (m.start argv directory? limit?) with
    | .error e => pure (.failed (startFailure tool e))
    | .ok ending =>
      if limit?.any (· < ending.millis) then pure (.timedOut tool seconds)
      else pure (.completed (Text.ofBytesLossy ending.stdout) (Text.ofBytesLossy ending.stderr)
        (ending.code.getD killedCode))

/-- Whether a program can be started and is content with being asked for its version. -/
def isInstalled (m : Machine) (program : String) : StateM World Bool := do
  match ← (m.start [program, "--version"] none none) with
  | .error _ => pure false
  | .ok ending => pure (ending.code = some 0)

end Machine

end ReviewMentor

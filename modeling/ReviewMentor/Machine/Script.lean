import ReviewMentor.Machine.World

/-!
# Programs that always do the same

A program that prints given texts and ends with a given code. It may print something else when it
is asked about a single file, and it may only take time.
-/

namespace ReviewMentor

/-- A program that always does the same. -/
structure Script where
  stdout : ByteArray
  stderr : ByteArray
  code : Int
  /-- Milliseconds after which the program ends without doing anything else. -/
  sleep? : Option Nat
  /-- What is printed when the last argument is a file. -/
  onFile? : Option ByteArray

namespace Script

/-- Exit codes have eight bits. -/
def exitCode (n : Int) : Int := n % 256

/-- What the program does when it is started. -/
def run (s : Script) (files : FileTree) (call : Call) : Ending :=
  match s.sleep? with
  | some millis => ⟨.empty, .empty, some 0, millis⟩
  | none =>
    let aboutFile := match call.argv.getLast? with
      | some last => files.isFile call.directory ⟨last⟩
      | none => false
    let stdout := match s.onFile?, aboutFile with
      | some bytes, true => bytes
      | _, _ => s.stdout
    ⟨stdout, s.stderr, some (exitCode s.code), 0⟩

end Script

end ReviewMentor

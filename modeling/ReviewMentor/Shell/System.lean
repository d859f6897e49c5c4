import ReviewMentor.Shell.Run

/-!
# A system with a shell

The files of a system that has the small programs, and what its executable files do: programs of
the system, and scripts that name such a program in their first line.
-/

namespace ReviewMentor.Shell

/-- The program and its argument in the first line of a script. -/
def interpreter? (content : ByteArray) : Option (List String) :=
  let line := content.toList.takeWhile (· ≠ 10)
  match (String.fromUTF8? (bytes line)).map String.toList with
  | some ('#' :: '!' :: rest) =>
    let isGap (c : Char) : Bool := c = ' ' || c = '\t'
    let rest := (rest.dropWhile isGap).reverse.dropWhile isGap |>.reverse
    let program := rest.takeWhile fun c => !isGap c
    let argument := (rest.drop program.length).dropWhile isGap
    some (String.ofList program :: if argument.isEmpty then [] else [String.ofList argument])
  | _ => none

/-- A tree with the programs of a system. -/
def systemTree : FileTree :=
  let devices : FileTree := ["null", "zero"].foldl
    (fun t name => t.set ["dev", name] (.file .empty 0o666)) (.set .empty ["dev"] .directory)
  systemDirectories.foldl (fun t directory =>
    programNames.foldl (fun t name => t.set (directory ++ [name]) (.file .empty 0o755))
      (directory.foldl (fun (t, place) name =>
        let place := place ++ [name]
        (if t.hasDirectory place then t else t.set place .directory, place)) (t, [])).1)
    devices

/-- The path under which a script was started. -/
def startedPath (call : Call) : String :=
  let name := call.argv.headD ""
  if name.toList.contains '/' then name else (Path.ofNames call.program).text

/-- What an executable file does: a program of the system, or a script that names a program of the
system in its first line. -/
def execute (environment : List (String × String)) (files : FileTree) (call : Call) :
    Except FileError Ending :=
  let state := State.initial files call.directory environment [call.argv.headD ""]
  if systemDirectories.contains call.program.dropLast then
    .ok (runSystem state (call.program.getLastD "") (call.argv.drop 1))
  else match files.lookup? call.program with
    | some (.file content _) =>
      match interpreter? content with
      | some (program :: options) =>
        match Machine.executable files call.directory ⟨program⟩ with
        | .error e => .error e
        | .ok place =>
          if systemDirectories.contains place.dropLast then
            .ok (runSystem state (place.getLastD "")
              (options ++ startedPath call :: call.argv.drop 1))
          else .error .badFormat
      | _ => .error .badFormat
    | _ => .error .notFound

end ReviewMentor.Shell

import ReviewMentor.Shell.Arithmetic
import ReviewMentor.Shell.Programs

/-!
# Running shell scripts

What a script does to the state that it works on. Words are expanded first: variables, sums and the
output of other scripts, then gaps and patterns. The number of steps is bounded.
-/

namespace ReviewMentor.Shell

/-- A part as it would be between quotes. -/
def Part.quoted : Part → Part
  | .text s _ => .text s true
  | .value expression _ => .value expression true
  | .output script _ => .output script true
  | .sum expression => .sum expression

/-- Whether a part is the output of a script. -/
def Part.isOutput : Part → Bool
  | .output _ _ => true
  | _ => false

/-- Adds text to the last of some words. -/
def extend (words : List Pattern) (more : Pattern) : List Pattern :=
  match words.getLast? with
  | some w => words.dropLast ++ [w ++ more]
  | none => [more]

/-- Adds the words of an unquoted text. -/
def extendSplit (words : List Pattern) (text : List Char) : List Pattern :=
  match fields text with
  | first :: more => extend words (Pattern.wild first) ++ more.map Pattern.wild
  | [] => words

/-- A text without the line breaks at its end. -/
def dropLineBreaks (cs : List Char) : List Char :=
  (cs.reverse.dropWhile (· = '\n')).reverse

/-- The name that a word gives a value to, and the parts of the value. -/
def assignment? (parts : List Part) : Option (String × List Part) :=
  let isOfName : Part → Bool
    | .text [c] false => isNameChar c
    | _ => false
  let name := (parts.takeWhile isOfName).flatMap fun p => (p.plain?).getD []
  match name, parts.dropWhile isOfName with
  | c :: _, .text ['='] false :: value =>
    if c.isDigit then none else some (String.ofList name, value)
  | _, _ => none

/-- The assignments at the start of a command, and its other words. -/
def assignments : List (List Part) → List (String × List Part) × List (List Part)
  | [] => ([], [])
  | word :: rest =>
    match assignment? word with
    | some a => let (more, words) := assignments rest; (a :: more, words)
    | none => ([], word :: rest)

namespace State

/-- The status with which a script leaves its surroundings. -/
def exitStatus (s : State) : Nat :=
  match s.flow with
  | .ended code => code
  | .killed => 137
  | _ => s.status

/-- What is left of a script that ran beside another one: its files, what it printed, its status. -/
def after (s inner : State) : State :=
  { s with
    files := inner.files, buffers := inner.buffers, millis := inner.millis
    status := inner.exitStatus }

/-- Ends a strict script when a command failed. -/
def settle (s : State) : State :=
  if s.isStrict && s.status ≠ 0 && s.flow = .running then { s with flow := .ended s.status }
  else s

/-- A state in which printed bytes go to a new buffer. -/
def withBuffer (s : State) : State :=
  { s with buffers := s.buffers.push .empty, stdout := .buffer s.buffers.size }

/-- A state without its last buffer. -/
def withoutBuffer (s : State) : State := { s with buffers := s.buffers.pop }

/-- Opens a file for printing: the sink, and the state with the file. -/
def openSink (s : State) (name : String) (keep : Bool) : Except FileError (State × Sink) := do
  if name = "/dev/null" then .ok (s, .nowhere)
  else if name = "/dev/stdout" then .ok (s, s.stdout)
  else if name = "/dev/stderr" then .ok (s, s.stderr)
  else
    let old := if keep then ((s.read name).toOption).getD .empty else .empty
    let files ← s.files.writeBytes s.cwd ⟨name⟩ old
    .ok ({ s with files }, .file (← files.find s.cwd true ⟨name⟩))

/-- Lets a stream go to a sink. -/
def setSink (s : State) (stream : Nat) (sink : Sink) : State :=
  if stream = 1 then { s with stdout := sink }
  else if stream = 2 then { s with stderr := sink } else s

/-- Redirects a stream; the other state reports why that fails. -/
def redirect (s : State) (stream : Nat) (mode target : String) : Except State State :=
  let failed (verb missing : String) (e : FileError) : State :=
    (s.report (verb ++ " " ++ target ++ ": " ++ if e = .notFound then missing else e.reason)).done 2
  if mode = "<<" then .ok { s with stdin := target.toUTF8 }
  else if mode = "<" then
    match readFile s target with
    | .ok content => .ok { s with stdin := content }
    | .error e => .error (failed "cannot open" "No such file" e)
  else if mode = ">&" then
    .ok (s.setSink stream
      (if target = "1" then s.stdout else if target = "2" then s.stderr else .nowhere))
  else match s.openSink target (mode = ">>") with
    | .ok (s, sink) => .ok (s.setSink stream sink)
    | .error e => .error (failed "cannot create" "Directory nonexistent" e)

/-- Reads a line of what comes in into variables; the last one takes the rest of it. -/
def readLine (s : State) (names : List String) : State :=
  let stop := afterLines s.stdin s.stdin.size 1 0
  let isWhole := stop > 0 && s.stdin[stop - 1]? = some 10
  let line := (s.stdin.extract 0 stop).toList.filter (· ≠ 10)
  let isGap (c : Char) : Bool := c = ' ' || c = '\t'
  let rec give (s : State) (cs : List Char) : List String → State
    | [] => s
    | [name] => s.setVariable name (String.ofList (cs.reverse.dropWhile isGap).reverse)
    | name :: rest =>
      give (s.setVariable name (String.ofList (cs.takeWhile fun c => !isGap c)))
        ((cs.dropWhile fun c => !isGap c).dropWhile isGap) rest
  let cs := ((String.fromUTF8? (bytes line)).getD "").toList.dropWhile isGap
  (give { s with stdin := s.stdin.extract stop s.stdin.size } cs names).done
    (if isWhole then 0 else 1)

/-- Changes the directory of a script. -/
def changeDirectory (s : State) (name : String) : State :=
  match s.files.find s.cwd true ⟨name⟩ with
  | .ok place =>
    if s.files.hasDirectory place then
      ({ s with cwd := place }.setVariable "PWD" (Path.ofNames place).text).done 0
    else (s.report ("cd: can't cd to " ++ name)).done 2
  | .error _ => (s.report ("cd: can't cd to " ++ name)).done 2

/-- Ends a script with the code that a word gives, or with the status. -/
def exit (s : State) (args : List String) : State :=
  match args with
  | [] => { s with flow := .ended s.status }
  | a :: _ =>
    match a.toNat? with
    | some n => { s.done (n % 256) with flow := .ended (n % 256) }
    | none =>
      { (s.report ("exit: Illegal number: " ++ a)).done 2 with flow := .ended 2 }

/-- The assignments among the words of a command, made one after another. -/
def setAll (s : State) (args : List String) : State :=
  args.foldl (fun s a =>
    match Text.cut '=' a with
    | name :: value :: more => s.setVariable name (Text.join "=" (value :: more))
    | _ => s) (s.done 0)

/-- Runs a command that changes the script itself; nothing if it is another one. -/
def builtin? (s : State) (name : String) (args : List String) : Option State :=
  if name = "exit" then some (s.exit args)
  else if name = "return" then
    some { s.done ((args.head?.bind String.toNat?).getD s.status % 256) with flow := .returned }
  else if name = "break" ∨ name = "continue" then
    some { s.done 0 with flow := .leftLoop (name = "continue") }
  else if name = "cd" then some (s.changeDirectory (args.headD (s.value "HOME")))
  else if name = "export" ∨ name = "local" ∨ name = "readonly" then some (s.setAll args)
  else if name = "unset" then some ((args.foldl State.unset s).done 0)
  else if name = "read" then
    some (s.readLine (args.filter fun a => !a.startsWith "-"))
  else if name = "shift" then
    some ({ s with
      arguments := s.arguments.take 1 ++
        s.arguments.drop (1 + (args.head?.bind String.toNat?).getD 1) }.done 0)
  else if name = "set" then
    let s := match args with
      | "--" :: words => { s with arguments := s.arguments.take 1 ++ words }
      | option :: _ =>
        if option.toList.contains 'e' then { s with isStrict := option.startsWith "-" } else s
      | [] => s
    some (s.done 0)
  else if ["trap", "umask", "ulimit", "wait"].contains name then some (s.done 0)
  else none

end State

mutual

/-- The words that the parts of a word stand for, and whether a part of it was quoted. -/
def expand : Nat → State → List Part → List Pattern → Bool → State × List Pattern × Bool
  | 0, s, _, words, quoted => (s, words, quoted)
  | _, s, [], words, quoted => (s, words, quoted)
  | fuel + 1, s, part :: rest, words, quoted =>
    match part with
    | .text t isQuoted =>
      expand fuel s rest (extend words (t.map fun c => (c, isQuoted))) (quoted || isQuoted)
    | .value ['@'] true =>
      match s.arguments.drop 1 with
      | first :: more =>
        expand fuel s rest
          (extend words (Pattern.literal first.toList) ++
            more.map fun a => Pattern.literal a.toList) true
      | [] => expand fuel s rest words quoted
    | .value expression true =>
      expand fuel s rest (extend words (Pattern.literal (s.evaluate expression).toList)) true
    | .value expression false =>
      expand fuel s rest (extendSplit words (s.evaluate expression).toList) quoted
    | .sum expression =>
      match sum? s expression with
      | some n => expand fuel s rest (extend words (Pattern.literal (toString n).toList)) true
      | none =>
        let shown := "\"" ++ String.ofList expression ++ "\""
        let s := s.report ("arithmetic expression: division by zero: " ++ shown)
        ({ s.done 2 with flow := .ended 2 }, words, quoted)
    | .output script isQuoted =>
      let (s, out) := capture fuel s script
      let text := dropLineBreaks ((String.fromUTF8? out).getD "").toList
      if isQuoted then expand fuel s rest (extend words (Pattern.literal text)) true
      else expand fuel s rest (extendSplit words text) quoted

/-- What a script prints. -/
def capture : Nat → State → List Char → State × ByteArray
  | 0, s, _ => (s, .empty)
  | fuel + 1, s, script =>
    let inner := runText fuel s.withBuffer (String.ofList script)
    ((s.after inner).withoutBuffer, inner.bufferAt s.buffers.size)

/-- The words of a command. -/
def words : Nat → State → List (List Part) → State × List String
  | 0, s, _ => (s, [])
  | _, s, [] => (s, [])
  | fuel + 1, s, parts :: rest =>
    let (s, ws, quoted) := expand fuel s parts [] false
    let ws := if quoted then ws else ws.filter (· ≠ [])
    let (s, more) := words fuel s rest
    (s, ws.flatMap (Pattern.expand s.files s.cwd) ++ more)

/-- The text that a word stands for where there is no more than one. -/
def single : Nat → State → List Part → State × Pattern
  | 0, s, _ => (s, [])
  | fuel + 1, s, parts =>
    let (s, ws, _) := expand fuel s parts [] true
    (s, ws.headD [])

/-- Makes assignments one after another. -/
def assign : Nat → State → List (String × List Part) → State
  | 0, s, _ => s
  | _, s, [] => s
  | fuel + 1, s, (name, value) :: rest =>
    let (s, value) := single fuel s (value.map Part.quoted)
    assign fuel (s.setVariable name value.text) rest

/-- Redirects streams one after another. -/
def redirectAll : Nat → State → List Redirection → Except State State
  | 0, s, _ => .ok s
  | _, s, [] => .ok s
  | fuel + 1, s, r :: rest =>
    let (s, target) := single fuel s (r.target.map Part.quoted)
    match s.redirect r.stream r.mode target.text with
    | .ok s => redirectAll fuel s rest
    | .error s => .error s

/-- Runs a script whose failure is looked at. -/
def runTested : Nat → State → Script → State
  | 0, s, _ => s
  | fuel + 1, s, script =>
    { run fuel { s with isStrict := false } script with isStrict := s.isStrict }

/-- Runs a script for every item of a list. -/
def runEach : Nat → State → String → List String → Script → State
  | 0, s, _, _, _ => s
  | _, s, _, [], _ => s
  | fuel + 1, s, name, item :: rest, body =>
    let s := run fuel (s.setVariable name item) body
    match s.flow with
    | .running | .leftLoop true => runEach fuel { s with flow := .running } name rest body
    | .leftLoop false => { s with flow := .running }
    | _ => s

/-- Runs a script. -/
def run : Nat → State → Script → State
  | 0, s, _ => s
  | fuel + 1, s, script =>
    if s.flow ≠ .running then s
    else match script with
      | .nothing => s
      | .sequence first second => run fuel (run fuel s first) second
      | .both first second =>
        let s := runTested fuel s first
        if s.status = 0 then run fuel s second else s
      | .either first second =>
        let s := runTested fuel s first
        if s.status = 0 then s else run fuel s second
      | .negate body =>
        let s := runTested fuel s body
        s.done (if s.status = 0 then 1 else 0)
      | .pipe first second =>
        let inner := run fuel s.withBuffer first
        let between := (s.after inner).withoutBuffer
        let last := run fuel { between with stdin := inner.bufferAt s.buffers.size } second
        (between.after last).settle
      | .branch condition yes no =>
        let s := runTested fuel s condition
        if s.status = 0 then run fuel (s.done 0) yes else run fuel (s.done 0) no
      | .choice subject patterns yes no =>
        let (s, value) := single fuel s (subject.map Part.quoted)
        if patterns.any fun p => (single fuel s p).2.accepts value.chars then
          run fuel (s.done 0) yes
        else run fuel (s.done 0) no
      | .loop condition body isUntil =>
        let s := runTested fuel s condition
        if s.flow = .running && (s.status = 0) != isUntil then
          let s := run fuel s body
          match s.flow with
          | .running | .leftLoop true =>
            run fuel { s with flow := .running } (.loop condition body isUntil)
          | .leftLoop false => { s with flow := .running }
          | _ => s
        else s.done 0
      | .each name items body =>
        let (s, items) := words fuel s items
        runEach fuel (s.done 0) name items body
      | .define name body => { s.done 0 with functions := (name, body) :: s.functions }
      | .nested body =>
        let inner := run fuel s body
        -- The number of the script is also that of a script in brackets.
        { s.after inner with
          flow := if inner.flow = Flow.killed then Flow.killed else s.flow }.settle
      | .redirected body redirections =>
        let back (inner : State) : State :=
          { inner with
            stdout := s.stdout, stderr := s.stderr
            stdin := if redirections.any (·.stream = 0) then s.stdin else inner.stdin }
        match redirectAll fuel s redirections with
        | .ok inner => back (run fuel inner body)
        | .error inner => (back inner).settle
      | .simple line parts =>
        let (given, parts) := assignments parts
        let (s, ws) := words fuel { s with line } parts
        if s.flow ≠ .running then s
        else if ws.isEmpty then
          let s := assign fuel s given
          if given.any (·.2.any Part.isOutput) then s.settle else s.done 0
        else
          let inner := command fuel (assign fuel s given) ws
          let inner := if given.isEmpty then inner else { inner with bindings := s.bindings }
          inner.settle

/-- Runs a command. -/
def command : Nat → State → List String → State
  | 0, s, _ => s
  | _, s, [] => s.done 0
  | fuel + 1, s, name :: args =>
    match s.functions.lookup name with
    | some body =>
      let inner := run fuel { s with arguments := s.arguments.take 1 ++ args } body
      { inner with
        arguments := s.arguments
        flow := if inner.flow = .returned then .running else inner.flow }
    | none =>
      if name = "eval" then runText fuel s (Text.join " " args)
      else if name = "exec" then
        let s := command fuel s args
        { s with flow := if s.flow = .running ∧ args ≠ [] then .ended s.status else s.flow }
      else if name = "env" ∨ name = "command" then
        command fuel (s.setAll (args.takeWhile (·.toList.contains '=')))
          (args.dropWhile (·.toList.contains '='))
      else match s.builtin? name args with
        | some s => s
        | none => external fuel s name args

/-- Runs a program that is found in the system or by its path. -/
def external : Nat → State → String → List String → State
  | 0, s, _, _ => s
  | fuel + 1, s, name, args =>
    if name = "sh" then shell fuel s args
    else if name.toList.contains '/' then
      match Machine.executable s.files s.cwd ⟨name⟩ with
      | .ok place =>
        if systemDirectories.contains place.dropLast then
          external fuel s (place.getLastD "") args
        else shell fuel s ((Path.ofNames place).text :: args)
      | .error .notPermitted => (s.report (name ++ ": Permission denied")).done 126
      | .error _ => (s.report (name ++ ": not found")).done 127
    else match program s true name args with
      | some s => s
      | none => (s.report (name ++ ": not found")).done 127

/-- Runs another shell. -/
def shell : Nat → State → List String → State
  | 0, s, _ => s
  | fuel + 1, s, args =>
    let fresh := { s with functions := [], isStrict := false, line := 1 }
    match args with
    | "-c" :: text :: names =>
      s.after (runText fuel { fresh with arguments := if names = [] then ["sh"] else names } text)
    | file :: _ =>
      match s.read file with
      | .ok content =>
        s.after (runText fuel { fresh with arguments := args }
          ((String.fromUTF8? content).getD ""))
      | .error _ =>
        (s.complain ("sh: 0: cannot open " ++ file ++ ": No such file\n")).done 2
    | [] => s.done 0

/-- Runs the script of a text. -/
def runText : Nat → State → String → State
  | 0, s, _ => s
  | fuel + 1, s, text =>
    match parse text with
    | .ok script => run fuel s script
    | .error fault =>
      { ({ s with line := fault.line }.report fault.message).done 2 with flow := .ended 2 }

end

/-- How many steps a script may take. -/
def stepLimit : Nat := 1000000

/-- What a program of the system does when it is started. Every program but the shell knows its
version. -/
def runSystem (s : State) (name : String) (args : List String) : Ending :=
  if name = "sh" then
    -- The script takes the place of the shell that was started.
    match args with
    | "-c" :: text :: names =>
      (runText stepLimit { s with arguments := if names = [] then ["sh"] else names } text).ending
    | file :: _ =>
      match s.read file with
      | .ok content =>
        (runText stepLimit { s with arguments := args }
          ((String.fromUTF8? content).getD "")).ending
      | .error _ => (shell stepLimit s args).ending
    | [] => (s.done 0).ending
  else if args = ["--version"] then (s.done (if name = "false" then 1 else 0)).ending
  else if name = "env" then (command stepLimit s (name :: args)).ending
  else match program s false name args with
    | some s => s.ending
    | none => (s.done 127).ending

end ReviewMentor.Shell

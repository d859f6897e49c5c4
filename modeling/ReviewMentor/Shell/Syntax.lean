import ReviewMentor.Shell.Word

/-!
# Shell scripts

Commands, and how they are put together: one after another, depending on how the one before ended,
through pipes, in loops, in branches and in functions.
-/

namespace ReviewMentor.Shell

/-- Where a stream of a command goes or comes from. In the mode `<<` the target is the text. -/
structure Redirection where
  stream : Nat
  mode : String
  target : List Part
deriving DecidableEq, Repr

/-- A script. -/
inductive Script where
  | simple (line : Nat) (words : List (List Part))
  | redirected (body : Script) (redirections : List Redirection)
  | sequence (first second : Script)
  | both (first second : Script)
  | either (first second : Script)
  | negate (body : Script)
  | pipe (first second : Script)
  | branch (condition yes no : Script)
  | choice (subject : List Part) (patterns : List (List Part)) (yes no : Script)
  | loop (condition body : Script) (isUntil : Bool)
  | each (name : String) (items : List (List Part)) (body : Script)
  | define (name : String) (body : Script)
  | nested (body : Script)
  | nothing
deriving Repr, Inhabited

/-- The text of a part without quotes and dollars. -/
def Part.plain? : Part → Option (List Char)
  | .text s false => some s
  | _ => none

/-- The word of a token without quotes and dollars. -/
def plainWord? : Token → Option String
  | .word _ parts => (parts.mapM Part.plain?).map fun ss => String.ofList ss.flatten
  | _ => none

/-- Whether the next token is a given word. -/
def startsWith (word : String) : List Token → Bool
  | t :: _ => plainWord? t = some word
  | [] => false

/-- Whether the next token is a given operator. -/
def startsWithSign (sign : String) : List Token → Bool
  | .operator _ s :: _ => s = sign
  | _ => false

/-- The words that have a meaning of their own where a command begins. -/
def reservedWords : List String :=
  ["!", "case", "do", "done", "elif", "else", "esac", "fi", "for", "if", "in", "then", "until",
    "while", "\x7b", "\x7d"]

/-- The name under which a token is reported. -/
def Token.label (t : Token) : String :=
  match t with
  | .operator _ "\n" => "newline"
  | .operator _ s => "\"" ++ s ++ "\""
  | .redirect _ _ | .document _ => "redirection"
  | .word _ _ =>
    match plainWord? t with
    | some w => if reservedWords.contains w then "\"" ++ w ++ "\"" else "word"
    | none => "word"

/-- The line of a token, if it has one. -/
def Token.line? : Token → Option Nat
  | .word line _ | .operator line _ => some line
  | _ => none

/-- Refuses the next token. -/
def refuse {α : Type} (wanted? : Option String) : List Token → Except Fault α
  | t :: _ => .error (.unexpected (t.line?.getD 1) t.label wanted?)
  | [] => .error (.unexpected 1 "end of file" wanted?)

/-- What follows a word that has to be there. -/
def expect (word : String) (ts : List Token) : Except Fault (List Token) :=
  if startsWith word ts then .ok (ts.drop 1) else refuse (some word) ts

/-- What follows an operator that has to be there. -/
def expectSign (sign : String) (ts : List Token) : Except Fault (List Token) :=
  if startsWithSign sign ts then .ok (ts.drop 1) else refuse (some sign) ts

/-- Tokens without line breaks at their start. -/
def skipLines (ts : List Token) : List Token :=
  ts.dropWhile fun t => match t with
    | .operator _ s => s = "\n"
    | _ => false

/-- The words that end a list of commands. -/
def closers : List String := ["then", "else", "elif", "fi", "do", "done", "\x7d", "esac"]

/-- Whether a list of commands ends here. -/
def atEnd : List Token → Bool
  | [] => true
  | .operator _ ")" :: _ | .operator _ ";;" :: _ => true
  | t :: _ => match plainWord? t with
    | some w => closers.contains w
    | none => false

/-- Reads the redirections of a command. -/
def redirections : List Token → List Redirection × List Token
  | .redirect stream mode :: .word _ target :: rest =>
    let (more, after) := redirections rest
    (⟨stream, mode, target⟩ :: more, after)
  | .document parts :: rest =>
    let (more, after) := redirections rest
    (⟨0, "<<", parts⟩ :: more, after)
  | rest => ([], rest)

/-- Reads the words and redirections of a simple command. -/
def simpleCommand : List Token → List (List Part) × List Redirection × List Token
  | .word _ parts :: rest =>
    let (words, more, after) := simpleCommand rest
    (parts :: words, more, after)
  | .redirect stream mode :: .word _ target :: rest =>
    let (words, more, after) := simpleCommand rest
    (words, ⟨stream, mode, target⟩ :: more, after)
  | .document parts :: rest =>
    let (words, more, after) := simpleCommand rest
    (words, ⟨0, "<<", parts⟩ :: more, after)
  | rest => ([], [], rest)

/-- A script with redirections, if there are any. -/
def Script.withRedirections (body : Script) : List Redirection → Script
  | [] => body
  | rs => .redirected body rs

/-- Reads the patterns of an arm. -/
def armPatterns : List Token → List (List Part) × List Token
  | .word _ parts :: .operator _ "|" :: rest =>
    let (more, after) := armPatterns rest
    (parts :: more, after)
  | .word _ parts :: rest => ([parts], rest)
  | rest => ([], rest)

mutual

/-- Reads commands up to the end of their list. -/
def readList : Nat → List Token → Except Fault (Script × List Token)
  | 0, ts => refuse none ts
  | fuel + 1, ts => do
    let ts := skipLines ts
    if atEnd ts then .ok (.nothing, ts)
    else
      let (first, rest) ← readChain fuel ts
      if startsWithSign ";" rest || startsWithSign "&" rest || startsWithSign "\n" rest then
        let (second, rest) ← readList fuel (rest.drop 1)
        .ok (.sequence first second, rest)
      else .ok (first, rest)

/-- Reads commands that depend on each other. -/
def readChain : Nat → List Token → Except Fault (Script × List Token)
  | 0, ts => refuse none ts
  | fuel + 1, ts => do
    let (first, rest) ← readPipe fuel ts
    readChainFrom fuel first rest

/-- Reads commands that depend on those before them. -/
def readChainFrom : Nat → Script → List Token → Except Fault (Script × List Token)
  | 0, _, ts => refuse none ts
  | fuel + 1, first, ts =>
    match ts with
    | .operator _ "&&" :: rest => do
      let (second, rest) ← readPipe fuel (skipLines rest)
      readChainFrom fuel (.both first second) rest
    | .operator _ "||" :: rest => do
      let (second, rest) ← readPipe fuel (skipLines rest)
      readChainFrom fuel (.either first second) rest
    | rest => .ok (first, rest)

/-- Reads commands that are connected by pipes. -/
def readPipe : Nat → List Token → Except Fault (Script × List Token)
  | 0, ts => refuse none ts
  | fuel + 1, ts => do
    if startsWith "!" ts then
      let (body, rest) ← readPipe fuel (ts.drop 1)
      .ok (.negate body, rest)
    else
      let (first, rest) ← readCommand fuel ts
      if startsWithSign "|" rest then
        let (second, rest) ← readPipe fuel (skipLines (rest.drop 1))
        .ok (.pipe first second, rest)
      else .ok (first, rest)

/-- Reads one command. -/
def readCommand : Nat → List Token → Except Fault (Script × List Token)
  | 0, ts => refuse none ts
  | fuel + 1, ts =>
    let redirected (body : Script) (rest : List Token) : Except Fault (Script × List Token) :=
      let (rs, rest) := redirections rest
      .ok (body.withRedirections rs, rest)
    if startsWith "if" ts then do
      let (body, rest) ← readBranch fuel (ts.drop 1)
      redirected body rest
    else if startsWith "while" ts || startsWith "until" ts then do
      let (condition, rest) ← readList fuel (ts.drop 1)
      let (body, rest) ← readList fuel (← expect "do" rest)
      redirected (.loop condition body (startsWith "until" ts)) (← expect "done" rest)
    else if startsWith "for" ts then do
      let name := ((ts.drop 1).head?.bind plainWord?).getD ""
      let rest := ts.drop 2
      let (words, rest) :=
        if startsWith "in" rest then
          let (words, _, rest) := simpleCommand (rest.drop 1)
          (words, rest)
        else ([[.value ['@'] true]], rest)
      let rest := skipLines (if startsWithSign ";" rest then rest.drop 1 else rest)
      let (body, rest) ← readList fuel (← expect "do" rest)
      redirected (.each name words body) (← expect "done" rest)
    else if startsWith "case" ts then do
      let subject := match ts.drop 1 with
        | .word _ parts :: _ => parts
        | _ => []
      let rest ← expect "in" (skipLines (ts.drop 2))
      let (body, rest) ← readArms fuel subject (skipLines rest)
      redirected body rest
    else if startsWith "\x7b" ts then do
      let (body, rest) ← readList fuel (ts.drop 1)
      redirected body (← expect "\x7d" rest)
    else match ts with
      | .operator _ "(" :: rest => do
        let (body, rest) ← readList fuel rest
        redirected (.nested body) (← expectSign ")" rest)
      | t :: .operator _ "(" :: .operator _ ")" :: rest => do
        let (body, rest) ← readCommand fuel (skipLines rest)
        .ok (.define ((plainWord? t).getD "") body, rest)
      | ts =>
        let (words, rs, rest) := simpleCommand ts
        if (words.isEmpty && rs.isEmpty) || atEnd ts then refuse none ts
        else
          let line := (ts.findSome? Token.line?).getD 1
          .ok ((Script.simple line words).withRedirections rs, rest)

/-- Reads a branch after its first word. -/
def readBranch : Nat → List Token → Except Fault (Script × List Token)
  | 0, ts => refuse none ts
  | fuel + 1, ts => do
    let (condition, rest) ← readList fuel ts
    let (yes, rest) ← readList fuel (← expect "then" rest)
    if startsWith "elif" rest then
      let (no, rest) ← readBranch fuel (rest.drop 1)
      .ok (.branch condition yes no, rest)
    else if startsWith "else" rest then
      let (no, rest) ← readList fuel (rest.drop 1)
      .ok (.branch condition yes no, ← expect "fi" rest)
    else .ok (.branch condition yes .nothing, ← expect "fi" rest)

/-- Reads the arms of a choice. -/
def readArms : Nat → List Part → List Token → Except Fault (Script × List Token)
  | 0, _, ts => refuse none ts
  | fuel + 1, subject, ts => do
    if startsWith "esac" ts then .ok (.nothing, ts.drop 1)
    else
      let (patterns, rest) := armPatterns (if startsWithSign "(" ts then ts.drop 1 else ts)
      let (yes, rest) ← readList fuel (← expectSign ")" rest)
      if startsWithSign ";;" rest then
        let (no, rest) ← readArms fuel subject (skipLines (rest.drop 1))
        .ok (.choice subject patterns yes no, rest)
      else .ok (.choice subject patterns yes .nothing, ← expect "esac" rest)

end

/-- Gives a fault at the end of a script the number of its last line. -/
def Fault.atLine (last : Nat) : Fault → Fault
  | .unexpected line token wanted? =>
    .unexpected (if token = "end of file" then last else line) token wanted?
  | fault => fault

/-- The script of a text. -/
def parse (text : String) : Except Fault Script :=
  let cs := text.toList
  let result : Except Fault Script := do
    let ts ← tokens (cs.length + 1) 1 cs
    let (script, rest) ← readList (6 * ts.length + 6) ts
    if rest.isEmpty then .ok script else refuse none rest
  result.mapError (Fault.atLine (cs.count '\n' + 1))

end ReviewMentor.Shell

import ReviewMentor.Machine.World
import ReviewMentor.Text.Split

/-!
# Words of a shell script

Cutting the text of a script into words and operators. A word keeps its parts, since what stands
between quotes is not looked at again; single quotes keep everything, and a dollar opens a variable,
a sum or the output of a script. Every token knows the line that it stands on.
-/

namespace ReviewMentor.Shell

/-- A part of a word. -/
inductive Part where
  | text (s : List Char) (isQuoted : Bool)
  | value (expression : List Char) (isQuoted : Bool)
  | sum (expression : List Char)
  | output (script : List Char) (isQuoted : Bool)
deriving DecidableEq, Repr

/-- A word or an operator of a script. -/
inductive Token where
  | word (line : Nat) (parts : List Part)
  | operator (line : Nat) (s : String)
  /-- A redirection of a stream; its target follows as a word. -/
  | redirect (stream : Nat) (mode : String)
  /-- Input that is written in the script itself. -/
  | document (parts : List Part)
deriving DecidableEq, Repr

/-- A fault in the form of a script, with its line. -/
inductive Fault where
  | openQuote (line : Nat)
  | unexpected (line : Nat) (token : String) (wanted? : Option String)
deriving DecidableEq, Repr

/-- The line of a fault. -/
def Fault.line : Fault → Nat
  | .openQuote line | .unexpected line _ _ => line

/-- What is said about a fault. -/
def Fault.message : Fault → String
  | .openQuote _ => "Syntax error: Unterminated quoted string"
  | .unexpected _ token none => "Syntax error: " ++ token ++ " unexpected"
  | .unexpected _ token (some wanted) =>
    "Syntax error: " ++ token ++ " unexpected (expecting \"" ++ wanted ++ "\")"

/-- Whether a character may stand in the name of a variable. -/
def isNameChar (c : Char) : Bool := c.isAlphanum || c = '_'

/-- Whether a character opens and closes the output of a script. -/
def isBackquote (c : Char) : Bool := c.toNat = 0x60

/-- Cuts a text at the bracket that closes the ones that are open. Brackets between quotes do not
count. -/
def untilClosed (opening closing : Char) :
    Nat → Option Char → List Char → List Char × List Char
  | _, _, [] => ([], [])
  | depth, some quote, c :: rest =>
    let (inside, after) :=
      untilClosed opening closing depth (if c = quote then none else some quote) rest
    (c :: inside, after)
  | depth, none, c :: rest =>
    if c = closing then
      match depth with
      | 0 => ([], rest)
      | d + 1 =>
        let (inside, after) := untilClosed opening closing d none rest
        (c :: inside, after)
    else
      let depth := if c = opening then depth + 1 else depth
      let quote := if c = '\'' || c = '"' then some c else none
      let (inside, after) := untilClosed opening closing depth quote rest
      (c :: inside, after)

/-- Cuts a text at the next backquote; a backslash protects one. -/
def untilBackquote : List Char → List Char × List Char
  | [] => ([], [])
  | [c] => if isBackquote c then ([], []) else ([c], [])
  | c :: d :: rest =>
    if isBackquote c then ([], d :: rest)
    else if c = '\\' && (isBackquote d || d = '\\' || d = '$') then
      let (inside, after) := untilBackquote rest
      (d :: inside, after)
    else
      let (inside, after) := untilBackquote (d :: rest)
      (c :: inside, after)

/-- Reads what follows a dollar. -/
def dollar (isQuoted : Bool) (cs : List Char) : Part × List Char :=
  match cs with
  | '(' :: '(' :: rest =>
    let (inside, after) := untilClosed '(' ')' 1 none rest
    (.sum inside.dropLast, after)
  | '(' :: rest =>
    let (inside, after) := untilClosed '(' ')' 0 none rest
    (.output inside isQuoted, after)
  | '\x7b' :: rest =>
    let (inside, after) := untilClosed '\x7b' '\x7d' 0 none rest
    (.value inside isQuoted, after)
  | c :: rest =>
    if c.isAlpha || c = '_' then
      (.value (cs.takeWhile isNameChar) isQuoted, cs.dropWhile isNameChar)
    else if c.isDigit || c = '?' || c = '$' || c = '#' || c = '@' || c = '*' || c = '!' then
      (.value [c] isQuoted, rest)
    else (.text ['$'] isQuoted, cs)
  | [] => (.text ['$'] isQuoted, [])

/-- Reads text in which only dollars, backquotes and backslashes have a meaning. With `toQuote` it
ends at a double quote, which has to be there; else it is all of the text. -/
def expanding (toQuote : Bool) : Nat → List Char → Option (List Part × List Char)
  | 0, _ => none
  | fuel + 1, cs =>
    match cs with
    | [] => if toQuote then none else some ([], [])
    | '\\' :: '\n' :: rest => expanding toQuote fuel rest
    | '\\' :: c :: rest => do
      let isPlain := c = '\\' || c = '$' || isBackquote c || (toQuote && c = '"')
      let (parts, after) ← expanding toQuote fuel rest
      some (.text (if isPlain then [c] else ['\\', c]) true :: parts, after)
    | '$' :: rest => do
      let (part, rest) := dollar true rest
      let (parts, after) ← expanding toQuote fuel rest
      some (part :: parts, after)
    | c :: rest =>
      if toQuote && c = '"' then some ([], rest)
      else if isBackquote c then do
        let (inside, rest) := untilBackquote rest
        let (parts, after) ← expanding toQuote fuel rest
        some (.output inside true :: parts, after)
      else do
        let (parts, after) ← expanding toQuote fuel rest
        some (.text [c] true :: parts, after)

/-- Whether a character ends a word. -/
def endsWord (c : Char) : Bool :=
  c = ' ' || c = '\t' || c = '\n' || c = ';' || c = '&' || c = '|' || c = '<' || c = '>' ||
    c = '(' || c = ')'

/-- Reads the parts of a word; nothing if a quote is not closed. -/
def wordParts : Nat → List Char → Option (List Part × List Char)
  | 0, _ => none
  | fuel + 1, cs =>
    match cs with
    | [] => some ([], [])
    | '\'' :: rest =>
      match rest.dropWhile (· ≠ '\'') with
      | [] => none
      | _ :: after => do
        let (parts, after) ← wordParts fuel after
        some (.text (rest.takeWhile (· ≠ '\'')) true :: parts, after)
    | '"' :: rest => do
      let (inside, rest) ← expanding true (rest.length + 1) rest
      let (parts, after) ← wordParts fuel rest
      some (.text [] true :: inside ++ parts, after)
    | '\\' :: '\n' :: rest => wordParts fuel rest
    | '\\' :: c :: rest => do
      let (parts, after) ← wordParts fuel rest
      some (.text [c] true :: parts, after)
    | '$' :: rest => do
      let (part, rest) := dollar false rest
      let (parts, after) ← wordParts fuel rest
      some (part :: parts, after)
    | c :: rest =>
      if endsWord c then some ([], cs)
      else if isBackquote c then do
        let (inside, rest) := untilBackquote rest
        let (parts, after) ← wordParts fuel rest
        some (.output inside false :: parts, after)
      else do
        let (parts, after) ← wordParts fuel rest
        some (.text [c] false :: parts, after)

/-- Reads a redirection sign: how the stream is redirected, and what follows. -/
def redirectionSign : List Char → String × List Char
  | '>' :: '>' :: rest => (">>", rest)
  | '>' :: '&' :: rest => (">&", rest)
  | '>' :: '|' :: rest => (">", rest)
  | '<' :: rest => ("<", rest)
  | rest => (">", rest.drop 1)

/-- Cuts lines at the one that closes a document: the document, and what follows. -/
def documentUntil (mark : List Char) (tabsToo : Bool) : List (List Char) → List Char × List Char
  | [] => ([], [])
  | line :: rest =>
    let line := if tabsToo then line.dropWhile (· = '\t') else line
    if line = mark then ([], ['\n'].intercalate rest)
    else
      let (inside, after) := documentUntil mark tabsToo rest
      (line ++ '\n' :: inside, after)

/-- Reads a document that is written in the script: its parts, and the script without it. What
follows on the line of its sign belongs to the script. -/
def readDocument (cs : List Char) : List Part × List Char :=
  let tabsToo := cs.head? = some '-'
  let cs := (if tabsToo then cs.drop 1 else cs).dropWhile (· = ' ')
  let mark := cs.takeWhile fun c => !endsWord c
  let rest := cs.drop mark.length
  let isQuote (c : Char) : Bool := c = '\'' || c = '"' || c = '\\'
  let line := rest.takeWhile (· ≠ '\n')
  let (inside, after) := documentUntil (mark.filter fun c => !isQuote c) tabsToo
    (Text.cutAt '\n' ((rest.dropWhile (· ≠ '\n')).drop 1))
  let parts := if mark.any isQuote then [.text inside true]
    else (((expanding false (inside.length + 1) inside).map (·.1)).getD [])
  (parts, line ++ '\n' :: after)

/-- The number of line breaks in the part of a text that was read. -/
def linesRead (before after : List Char) : Nat :=
  (before.take (before.length - after.length)).count '\n'

/-- The tokens of a script whose first line has a number. -/
def tokens : Nat → Nat → List Char → Except Fault (List Token)
  | 0, _, _ => .ok []
  | fuel + 1, line, cs =>
    let sign (s : String) (rest : List Char) : Except Fault (List Token) := do
      .ok (.operator line s :: (← tokens fuel line rest))
    match cs with
    | [] => .ok []
    | ' ' :: rest | '\t' :: rest | '\\' :: '\n' :: rest => tokens fuel line rest
    | '#' :: rest => tokens fuel line (rest.dropWhile (· ≠ '\n'))
    | '\n' :: rest => do .ok (.operator line "\n" :: (← tokens fuel (line + 1) rest))
    | ';' :: ';' :: rest => sign ";;" rest
    | ';' :: rest => sign ";" rest
    | '&' :: '&' :: rest => sign "&&" rest
    | '&' :: rest => sign "&" rest
    | '|' :: '|' :: rest => sign "||" rest
    | '|' :: rest => sign "|" rest
    | '(' :: rest => sign "(" rest
    | ')' :: rest => sign ")" rest
    | '<' :: '<' :: rest => do
      let (parts, rest) := readDocument rest
      .ok (.document parts :: (← tokens fuel line rest))
    | c :: rest =>
      if c = '<' || c = '>' then do
        let (mode, after) := redirectionSign cs
        .ok (.redirect (if c = '<' then 0 else 1) mode :: (← tokens fuel line after))
      else if c.isDigit && (rest.head? = some '>' || rest.head? = some '<') then do
        let (mode, after) := redirectionSign rest
        .ok (.redirect (c.toNat - 0x30) mode :: (← tokens fuel line after))
      else match wordParts (cs.length + 1) cs with
        | none => .error (.openQuote (line + cs.count '\n'))
        | some (parts, after) => do
          .ok (.word line parts :: (← tokens fuel (line + linesRead cs after) after))

end ReviewMentor.Shell

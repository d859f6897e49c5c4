import ReviewMentor.Powers
import ReviewMentor.Shell.Format
import ReviewMentor.Shell.State

/-!
# The small programs of a system

What the common small programs do that scripts are made of: printing, reading files, cutting and
counting their lines, and tests. A program prints and leaves a status.
-/

namespace ReviewMentor.Shell

/-! ## Reading -/

/-- How much of an endless stream is ever read. -/
def endlessSize : Nat := 2 ^ 21

/-- The bytes of a file. -/
def readFile (s : State) (name : String) : Except FileError ByteArray :=
  if name = "/dev/zero" then .ok (bytes (List.replicate endlessSize 0)) else s.read name

/-- The bytes of some files one after another; without a name, what comes in. A file that cannot be
read is reported by its name and the reason, and sets the status. -/
def inputOf (s : State) (names : List String) (failure : String → String → String)
    (code : Nat) : State × ByteArray :=
  if names.isEmpty then ({ s.done 0 with stdin := .empty }, s.stdin)
  else names.foldl (fun (s, content) name =>
    if name = "-" then ({ s with stdin := .empty }, content ++ s.stdin)
    else match readFile s name with
      | .ok more => (s, content ++ more)
      | .error e => ((s.complain (failure name e.reason ++ "\n")).done code, content))
    (s.done 0, .empty)

/-- Prints files one after another. -/
def cat (s : State) (names : List String) : State :=
  let (s, content) := inputOf s names (fun name reason => "cat: " ++ name ++ ": " ++ reason) 1
  s.print content

/-- Prints the names in directories. -/
def list (s : State) (args : List String) : State :=
  let isOption (a : String) : Bool := a.startsWith "-" && a.length > 1
  let has (c : Char) : Bool := args.any fun a => isOption a && a.toList.contains c
  let shown (place : Place) : List String :=
    (if has 'a' then [".", ".."] else []) ++
      (s.files.names place).filter fun n => has 'a' || has 'A' || !n.startsWith "."
  let names := args.filter fun a => !isOption a
  (if names.isEmpty then ["."] else names).foldl (fun s name =>
    match s.files.find s.cwd true ⟨name⟩ with
    | .ok place =>
      if s.files.hasDirectory place && !has 'd' then
        (shown place).foldl (fun s n => s.say (n ++ "\n")) s
      else s.say (name ++ "\n")
    | .error e => (s.complain ("ls: cannot access '" ++ name ++ "': " ++ e.reason ++ "\n")).done 2)
    (s.done 0)

/-! ## Lines -/

/-- The place after a number of line breaks, or the end. -/
def afterLines (b : ByteArray) : Nat → Nat → Nat → Nat
  | 0, _, i => i
  | _, 0, i => i
  | fuel + 1, n + 1, i =>
    match b[i]? with
    | none => i
    | some 10 => afterLines b fuel n (i + 1)
    | some _ => afterLines b fuel (n + 1) (i + 1)

/-- How many line breaks there are. -/
def lineBreaks (b : ByteArray) : Nat :=
  b.foldl (fun n x => if x = 10 then n + 1 else n) 0

/-- How many words there are. -/
def wordCount (b : ByteArray) : Nat :=
  (b.foldl (fun (n, inside) x =>
    if x = 32 || (9 ≤ x && x ≤ 13) then (n, false)
    else (if inside then n else n + 1, true)) (0, false)).1

/-- The lines of some bytes. -/
def linesOf (b : ByteArray) : List String :=
  Text.lines ((String.fromUTF8? b).getD "")

/-- A part of a stream: so many of its lines or bytes. -/
structure Amount where
  inBytes : Bool
  count : Nat
deriving DecidableEq, Repr

/-- A number with a letter for its unit. -/
def sizeOf (word : String) : Nat :=
  let digits := word.toList.takeWhile Char.isDigit
  let unit := match word.toList.drop digits.length with
    | c :: _ => if c = 'k' ∨ c = 'K' then 1024 else if c = 'M' then 1024 * 1024 else 1
    | [] => 1
  ((String.ofList digits).toNat?).getD 0 * unit

/-- The amount that the words of a command ask for, and its other words. -/
def amountOf : List String → Amount × List String
  | "-n" :: n :: rest => (⟨false, sizeOf n⟩, rest)
  | "-c" :: n :: rest => (⟨true, sizeOf n⟩, rest)
  | first :: rest =>
    match first.toList with
    | '-' :: 'n' :: n => (⟨false, sizeOf (String.ofList n)⟩, rest)
    | '-' :: 'c' :: n => (⟨true, sizeOf (String.ofList n)⟩, rest)
    | '-' :: d :: n =>
      if d.isDigit then (⟨false, sizeOf (String.ofList (d :: n))⟩, rest)
      else (⟨false, 10⟩, first :: rest)
    | _ => (⟨false, 10⟩, first :: rest)
  | [] => (⟨false, 10⟩, [])

/-- The front of a stream. -/
def Amount.front (a : Amount) (b : ByteArray) : ByteArray :=
  b.extract 0 (if a.inBytes then a.count else afterLines b b.size a.count 0)

/-- The back of a stream. -/
def Amount.back (a : Amount) (b : ByteArray) : ByteArray :=
  if a.inBytes then b.extract (b.size - a.count) b.size
  else
    let isOpen := b.size > 0 && b[b.size - 1]? ≠ some 10
    let lines := lineBreaks b + if isOpen then 1 else 0
    b.extract (afterLines b b.size (lines - a.count) 0) b.size

/-- Prints a part of some files. -/
def portion (s : State) (name : String) (part : Amount → ByteArray → ByteArray)
    (args : List String) : State :=
  let (amount, files) := amountOf args
  let (s, content) := inputOf s files
    (fun file reason => name ++ ": cannot open '" ++ file ++ "' for reading: " ++ reason) 1
  s.print (part amount content)

/-- A number with blanks before it. -/
def column (width n : Nat) : String := (Padding.mk width false false).apply (toString n)

/-- Prints how many lines, words and bytes there are in a file, or in what comes in. -/
def count (s : State) (args : List String) : State :=
  let options := (args.filter (·.startsWith "-")).flatMap String.toList
  let files := args.filter fun a => !a.startsWith "-"
  let wanted (c : Char) : Bool := options.isEmpty || options.contains c
  let (s, content) := inputOf s files (fun name reason => "wc: " ++ name ++ ": " ++ reason) 1
  let counts := (if wanted 'l' then [lineBreaks content] else []) ++
    (if wanted 'w' then [wordCount content] else []) ++
    (if wanted 'c' || wanted 'm' then [content.size] else [])
  let width := if counts.length = 1 then 1 else if files.isEmpty then 7
    else (toString content.size).length
  if s.status ≠ 0 then s
  else s.say (Text.join " " (counts.map (column width) ++ files) ++ "\n")

/-- Prints lines in order. -/
def sort (s : State) (args : List String) : State :=
  let options := (args.filter (·.startsWith "-")).flatMap String.toList
  let (s, content) := inputOf s (args.filter fun a => !a.startsWith "-")
    (fun name reason => "sort: cannot read: " ++ name ++ ": " ++ reason) 2
  let number (line : String) : Int :=
    ((String.ofList (line.toList.takeWhile fun c => c.isDigit || c = '-')).toInt?).getD 0
  let before (a b : String) : Bool :=
    if options.contains 'n' then number a < number b || (number a = number b && a ≤ b)
    else a ≤ b
  let sorted := (linesOf content).mergeSort before
  let sorted := if options.contains 'r' then sorted.reverse else sorted
  let sorted := if options.contains 'u' then sorted.eraseReps else sorted
  if s.status ≠ 0 then s else sorted.foldl (fun s line => s.say (line ++ "\n")) s

/-- Prints the lines in which a text occurs. -/
def grep (s : State) (args : List String) : State :=
  let isOption (a : String) : Bool := a.startsWith "-" && a.length > 1
  let options := (args.filter isOption).flatMap String.toList
  match args.filter fun a => !isOption a with
  | [] => s.done 2
  | wanted :: files =>
    let (s, content) := inputOf s files (fun name reason => "grep: " ++ name ++ ": " ++ reason) 2
    let cs := wanted.toList
    let fromStart := cs.head? = some '^'
    let toEnd := cs.getLast? = some '$'
    let cs := if fromStart then cs.drop 1 else cs
    let cs := if toEnd then cs.dropLast else cs
    let holds (line : String) : Bool :=
      let ls := line.toList
      (if fromStart && toEnd then ls = cs
        else if fromStart then cs.isPrefixOf ls
        else if toEnd then cs.isSuffixOf ls
        else Text.occursIn cs ls) != options.contains 'v'
    let found := (linesOf content).filter holds
    let s := if s.status ≠ 0 then s else s.done (if found.isEmpty then 1 else 0)
    if options.contains 'q' then s
    else if options.contains 'c' then s.say (toString found.length ++ "\n")
    else found.foldl (fun s line => s.say (line ++ "\n")) s

/-! ## Bytes -/

/-- The bytes of a set of characters in which a dash stands for a range. -/
def byteSet : List UInt8 → List UInt8
  | a :: 45 :: b :: rest =>
    (List.range (b.toNat + 1 - a.toNat)).map (fun i => UInt8.ofNat (a.toNat + i)) ++ byteSet rest
  | a :: rest => a :: byteSet rest
  | [] => []

/-- The bytes of a set of characters. -/
def characterSet (text : String) : List UInt8 :=
  let range (first last : Char) : List UInt8 := byteSet (utf8 (String.ofList [first, '-', last]))
  match text with
  | "[:lower:]" => range 'a' 'z'
  | "[:upper:]" => range 'A' 'Z'
  | "[:digit:]" => range '0' '9'
  | "[:space:]" => range '\t' '\r' ++ [32]
  | _ => byteSet (unescape false (text.length + 1) text.toList).1

/-- What becomes of a byte when the bytes of one set take the place of those of another one. -/
def replacement (old new : List UInt8) (x : UInt8) : UInt8 :=
  match old.reverse.idxOf? x with
  | some fromEnd => (new[old.length - 1 - fromEnd]?).getD (new.getLast?.getD x)
  | none => x

/-- Prints what comes in with some bytes replaced or left out. -/
def transliterate (s : State) (args : List String) : State :=
  let content := s.stdin
  let s := { s.done 0 with stdin := .empty }
  match args with
  | ["-d", gone] =>
    let gone := characterSet gone
    s.print (content.foldl (fun out x => if gone.contains x then out else out.push x) .empty)
  | [old, new] =>
    let table := (List.range 256).toArray.map fun n =>
      replacement (characterSet old) (characterSet new) (UInt8.ofNat n)
    s.print (content.foldl (fun out x => out.push (table[x.toNat]?.getD x)) .empty)
  | _ => s.done 1

/-- Copies blocks of bytes. -/
def blocks (s : State) (args : List String) : State :=
  let option (name : String) : Option String := args.findSome? fun a =>
    if a.startsWith (name ++ "=") then some (String.ofList (a.toList.drop (name.length + 1)))
    else none
  let (s, content) := inputOf s (option "if").toList
    (fun name reason => "dd: failed to open '" ++ name ++ "': " ++ reason) 1
  let size := ((option "bs").map sizeOf).getD 512
  s.print (match option "count" with
    | some n => content.extract 0 (size * sizeOf n)
    | none => content)

/-! ## Printing -/

/-- Prints what is given, with a line break unless it is not wanted. -/
def echo (s : State) (escapes withBreak : Bool) (args : List String) : State :=
  let text := Text.join " " args
  let (out, stop) := if escapes then unescape true (text.length + 1) text.toList
    else (utf8 text, false)
  (s.print (bytes (out ++ if stop || !withBreak then [] else [10]))).done 0

/-- Reads the options of a printing program that stands on its own. -/
def plainEcho (s : State) : Bool → Bool → List String → State
  | escapes, withBreak, [] => echo s escapes withBreak []
  | escapes, withBreak, a :: rest =>
    match a.toList with
    | '-' :: c :: cs =>
      if (c :: cs).all fun c => c = 'n' || c = 'e' || c = 'E' then
        plainEcho s
          ((c :: cs).foldl (fun on c => if c = 'n' then on else c = 'e') escapes)
          (withBreak && !(c :: cs).contains 'n') rest
      else echo s escapes withBreak (a :: rest)
    | _ => echo s escapes withBreak (a :: rest)

/-- Numbers from one to another one, with a step. -/
def countFrom (first step : Int) : Nat → List Int
  | 0 => []
  | n + 1 => first :: countFrom (first + step) step n

/-- Prints numbers. -/
def sequence (s : State) (args : List String) : State :=
  let (first, step, last) := match args.map fun a => (a.toInt?).getD 0 with
    | [last] => (1, 1, last)
    | [first, last] => (first, 1, last)
    | [first, step, last] => (first, step, last)
    | _ => (1, 1, 0)
  let length := if step = 0 then 0 else ((last - first).tdiv step + 1).toNat
  let length := if (0 < step ∧ last < first) ∨ (step < 0 ∧ first < last) then 0 else length
  ((countFrom first step length).foldl (fun s n => s.say (toString n ++ "\n")) s).done 0

/-- Prints a line without end. -/
def repeated (s : State) (args : List String) : State :=
  let line := ((if args.isEmpty then "y" else Text.join " " args) ++ "\n").toUTF8
  let times := endlessSize / line.size
  (s.print ((List.range times).foldl (fun out _ => out ++ line) .empty)).done 0

/-- A text without the slashes at its end. -/
def withoutSlashes (cs : List Char) : List Char :=
  (cs.reverse.dropWhile (· = '/')).reverse

/-- The last part of a path, without an ending. -/
def baseName (path ending : List Char) : List Char :=
  let cs := withoutSlashes path
  let last := (cs.reverse.takeWhile (· ≠ '/')).reverse
  if cs.isEmpty then (if path.isEmpty then [] else ['/'])
  else if ending.isSuffixOf last && ending.length < last.length then
    last.take (last.length - ending.length)
  else last

/-- A path without its last part. -/
def directoryName (path : List Char) : List Char :=
  let cs := withoutSlashes path
  if !cs.contains '/' then (if cs.isEmpty && !path.isEmpty then ['/'] else ['.'])
  else
    let front := withoutSlashes (cs.reverse.dropWhile (· ≠ '/')).reverse
    if front.isEmpty then ['/'] else front

/-! ## Tests -/

/-- Whether a condition of a test holds. -/
def test (s : State) : List String → Bool
  | "!" :: rest => !test s rest
  | [a] => a ≠ ""
  | [op, a] =>
    let content := (s.read a).toOption
    if op = "-n" then a ≠ "" else if op = "-z" then a = ""
    else if op = "-e" then s.files.holds s.cwd ⟨a⟩
    else if op = "-f" then s.files.isFile s.cwd ⟨a⟩
    else if op = "-d" then s.files.isDirectory s.cwd ⟨a⟩
    else if op = "-s" then content.any fun b => b.size > 0
    else if op = "-r" ∨ op = "-w" then s.files.holds s.cwd ⟨a⟩
    else if op = "-x" then
      (Machine.executable s.files s.cwd ⟨a⟩).toBool || s.files.isDirectory s.cwd ⟨a⟩
    else false
  | [a, op, b] =>
    let compare (p : Int → Int → Bool) : Bool := p ((a.toInt?).getD 0) ((b.toInt?).getD 0)
    if op = "=" ∨ op = "==" then a = b else if op = "!=" then a ≠ b
    else if op = "-eq" then compare fun a b => a = b
    else if op = "-ne" then compare fun a b => a ≠ b
    else if op = "-lt" then compare fun a b => a < b
    else if op = "-le" then compare fun a b => a ≤ b
    else if op = "-gt" then compare fun a b => b < a
    else if op = "-ge" then compare fun a b => b ≤ a
    else if op = "-a" then a ≠ "" ∧ b ≠ "" else if op = "-o" then a ≠ "" ∨ b ≠ ""
    else false
  | _ => false

/-- Seconds as milliseconds. -/
def millisOf (word : String) : Nat :=
  match Text.cut '.' word with
  | [whole] => ((whole.toNat?).getD 0) * 1000
  | [whole, fraction] =>
    ((whole.toNat?).getD 0) * 1000 +
      ((fraction.toNat?).getD 0) * 1000 / 10 ^ fraction.length
  | _ => 0

/-! ## Files -/

/-- Changes the files, with one word after the other. -/
def changeFiles (s : State) (failure : String → String) (names : List String)
    (change : FileTree → String → Except FileError FileTree) : State :=
  names.foldl (fun s name =>
    match change s.files name with
    | .ok files => { s with files }
    | .error e => (s.complain (failure name ++ ": " ++ e.reason ++ "\n")).done 1) (s.done 0)

/-- Removes what stands at a path. -/
def remove (s : State) (options : List Char) (files : FileTree) (name : String) :
    Except FileError FileTree :=
  match files.find s.cwd false ⟨name⟩ with
  | .ok place =>
    if files.hasDirectory place && !options.contains 'r' then .error .isDirectory
    else .ok (files.drop place)
  | .error e => if options.contains 'f' then .ok files else .error e

/-- Runs a program that changes files; nothing if it is another one. -/
def fileProgram (s : State) (name : String) (args : List String) : Option State :=
  let options := (args.filter (·.startsWith "-")).flatMap String.toList
  let names := args.filter fun a => !a.startsWith "-"
  let change := changeFiles s
  if name = "mkdir" then
    some (change (fun n => "mkdir: cannot create directory '" ++ n ++ "'") names fun files n =>
      if options.contains 'p' then
        let (files, result) := files.makeDirectories s.cwd ⟨n⟩
        result.map fun _ => files
      else files.makeDirectory s.cwd ⟨n⟩)
  else if name = "touch" then
    some (change (fun n => "touch: cannot touch '" ++ n ++ "'") names fun files n =>
      if files.holds s.cwd ⟨n⟩ then .ok files else files.writeBytes s.cwd ⟨n⟩ .empty)
  else if name = "rm" then
    some (change (fun n => "rm: cannot remove '" ++ n ++ "'") names (remove s options))
  else none

/-! ## Programs by name -/

/-- The directories in which the programs of a system lie. -/
def systemDirectories : List Place := [["usr", "bin"], ["bin"]]

/-- The names of the programs of a system that are described here. -/
def programNames : List String :=
  ["[", "basename", "cat", "dd", "dirname", "echo", "env", "false", "grep", "head", "kill", "ls",
    "mkdir", "printf", "pwd", "rm", "seq", "sh", "sleep", "sort", "tail", "test", "touch", "tr",
    "true", "wc", "yes"]

/-- Runs a program; nothing if it is none of those that are described here. Inside a shell, printing
is part of the shell. -/
def program (s : State) (inShell : Bool) (name : String) (args : List String) : Option State :=
  if name = "echo" then
    some (if inShell then
        (if args.head? = some "-n" then echo s true false (args.drop 1) else echo s true true args)
      else plainEcho s false true args)
  else if name = "printf" then
    match args with
    | template :: rest => some ((s.print (formatted template rest)).done 0)
    | [] => some ((s.report "printf: usage: printf format [arg ...]").done 2)
  else if name = "true" ∨ name = ":" then some (s.done 0)
  else if name = "false" then some (s.done 1)
  else if name = "cat" then some (cat s args)
  else if name = "ls" then some (list s args)
  else if name = "pwd" then some ((s.say ((Path.ofNames s.cwd).text ++ "\n")).done 0)
  else if name = "sleep" then
    some { s.done 0 with millis := s.millis + (args.map millisOf).foldl (· + ·) 0 }
  else if name = "test" then some (s.done (if test s args then 0 else 1))
  else if name = "[" then some (s.done (if test s args.dropLast then 0 else 1))
  else if name = "seq" then some (sequence s args)
  else if name = "head" then some (portion s name Amount.front args)
  else if name = "tail" then some (portion s name Amount.back args)
  else if name = "wc" then some (count s args)
  else if name = "sort" then some (sort s args)
  else if name = "grep" then some (grep s args)
  else if name = "tr" then some (transliterate s args)
  else if name = "dd" then some (blocks s args)
  else if name = "yes" then some (repeated s args)
  else if name = "kill" then
    some (if args.contains "-0" then s.done 0
      else if args.contains State.ownNumber ∨ args.contains "0" then { s with flow := .killed }
      else s.done 1)
  else if name = "basename" then
    let shown := baseName (args.headD "").toList ((args[1]?).getD "").toList
    some ((s.say (String.ofList shown ++ "\n")).done 0)
  else if name = "dirname" then
    some ((s.say (String.ofList (directoryName (args.headD "").toList) ++ "\n")).done 0)
  else fileProgram s name args

end ReviewMentor.Shell

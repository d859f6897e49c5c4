import ReviewMentor.Text.Blank

/-!
# Clean text for prompts

Text that comes from outside must not speak to a model in the name of the program. Six kinds of
phrases are replaced by a mark, and a long text is cut.
-/

namespace ReviewMentor.Phrase

/-- A step of a phrase. -/
inductive Step where
  /-- These letters, in either case. -/
  | word (letters : List Char)
  /-- Blanks: any number, or at least one. -/
  | blanks (needed : Bool)
  /-- A word and blanks after it, or nothing. -/
  | maybe (letters : List Char)
  /-- A letter, or nothing. -/
  | plural (letter : Char)

/-- Whether a character is a letter in either case; the long s is an s too. -/
def isLetter (letter c : Char) : Bool :=
  c.toLower = letter || (letter = 's' && c = 'ſ')

/-- What follows the letters of a word. -/
def afterWord? : List Char → List Char → Option (List Char)
  | [], cs => some cs
  | _ :: _, [] => none
  | letter :: letters, c :: cs => if isLetter letter c then afterWord? letters cs else none

/-- What follows blanks. -/
def afterBlanks? (needed : Bool) (cs : List Char) : Option (List Char) :=
  match cs with
  | c :: _ => if needed && !Text.isBlank c then none else some (cs.dropWhile Text.isBlank)
  | [] => if needed then none else some []

/-- What follows a step. -/
def Step.after? (cs : List Char) : Step → Option (List Char)
  | .word letters => afterWord? letters cs
  | .blanks needed => afterBlanks? needed cs
  | .maybe letters =>
    match (afterWord? letters cs).bind (afterBlanks? true) with
    | some rest => some rest
    | none => some cs
  | .plural letter => match cs with
    | c :: rest => some (if isLetter letter c then rest else cs)
    | [] => some []

/-- What follows a phrase that stands at the front of a text. -/
def after? : List Step → List Char → Option (List Char)
  | [], cs => some cs
  | step :: steps, cs => (step.after? cs).bind (after? steps)

/-- The phrases that are not let through, in the order in which they are looked for. -/
def forbidden : List (List Step) :=
  let word (s : String) : Step := .word s.toList
  let earlier : List Step := [.blanks true, .maybe "all".toList, word "previous"]
  [word "ignore" :: earlier ++ [.blanks true, word "instruction", .plural 's'],
    word "disregard" :: earlier,
    word "forget" :: earlier,
    [word "system", .blanks false, word ":", .blanks false],
    [word "<", .blanks false, word "system", .blanks false, word ">"],
    [word "assistant", .blanks false, word ":", .blanks false]]

/-- What stands in the place of a phrase. -/
def mark : List Char := "[REDACTED]".toList

/-- Puts the mark in the place of every occurrence of a phrase, taken from the left. The number says
how many characters still belong to the last occurrence. -/
def redactFrom (phrase : List Step) : Nat → List Char → List Char
  | _, [] => []
  | skip + 1, _ :: rest => redactFrom phrase skip rest
  | 0, c :: rest =>
    match after? phrase (c :: rest) with
    | some left => mark ++ redactFrom phrase (rest.length - left.length) rest
    | none => c :: redactFrom phrase 0 rest

/-- Puts the mark in the place of every occurrence of a phrase. -/
def redact (cs : List Char) (phrase : List Step) : List Char :=
  redactFrom phrase 0 cs

/-- Whether a phrase occurs in a text. -/
def occurs (phrase : List Step) : List Char → Bool
  | [] => false
  | c :: rest => (after? phrase (c :: rest)).isSome || occurs phrase rest

/-- How many characters of a text are kept. -/
def lengthLimit : Nat := 500

/-- What ends a text that was cut. -/
def cutMark : List Char := "... [truncated]".toList

/-- A text without forbidden phrases, cut if it is long. -/
def sanitizeChars (cs : List Char) : List Char :=
  let clean := forbidden.foldl redact cs
  if lengthLimit < clean.length then clean.take lengthLimit ++ cutMark else clean

/-- A text without forbidden phrases, cut if it is long. -/
def sanitize (s : String) : String :=
  String.ofList (sanitizeChars s.toList)

end ReviewMentor.Phrase

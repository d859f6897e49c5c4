/-!
# Cutting texts

Cutting a text at a mark, the lines of a text, and searching for a text inside another one.
-/

namespace ReviewMentor.Text

/-- The parts between the marks: always one more part than there are marks. -/
def cutAt (mark : Char) : List Char → List (List Char)
  | [] => [[]]
  | c :: rest =>
    if c = mark then [] :: cutAt mark rest
    else match cutAt mark rest with
      | [] => [[c]]
      | part :: parts => (c :: part) :: parts

/-- The parts of a text between the marks. -/
def cut (mark : Char) (s : String) : List String :=
  (cutAt mark s.toList).map String.ofList

/-- Whether `part` occurs in `cs`. -/
def occursIn (part : List Char) : List Char → Bool
  | [] => part.isEmpty
  | c :: rest => part.isPrefixOf (c :: rest) || occursIn part rest

/-- Whether `part` occurs in `s`. -/
def contains (s part : String) : Bool :=
  occursIn part.toList s.toList

/-- A line without the carriage return at its end. -/
def dropReturn (line : List Char) : List Char :=
  match line.reverse with
  | '\r' :: rest => rest.reverse
  | _ => line

/-- The lines of a text, without their ends; an unfinished last line counts if it is not empty. -/
def lines (s : String) : List String :=
  let parts := cutAt '\n' s.toList
  let finished := parts.dropLast.map dropReturn
  let unfinished := (parts.getLast?.filter (· ≠ [])).toList
  (finished ++ unfinished).map String.ofList

/-- The texts with a separator between neighbours. -/
def join (separator : String) (parts : List String) : String :=
  separator.intercalate parts

/-- Every occurrence of `old`, taken from the left without overlap, replaced by `new`. -/
def replaceFrom (old new : List Char) : Nat → List Char → List Char
  | _, [] => []
  | skip + 1, _ :: rest => replaceFrom old new skip rest
  | 0, c :: rest =>
    if old.isPrefixOf (c :: rest) && !old.isEmpty then
      new ++ replaceFrom old new (old.length - 1) rest
    else c :: replaceFrom old new 0 rest

/-- Every occurrence of `old` replaced by `new`. -/
def replace (s old new : String) : String :=
  String.ofList (replaceFrom old.toList new.toList 0 s.toList)

end ReviewMentor.Text

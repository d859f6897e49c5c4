import Mathlib.Tactic.Common
import ReviewMentor.Proofs.Text.Cutting
import ReviewMentor.Proofs.Text.Trimming

/-!
# Sections with options

A text can be read as sections of options: a line in square brackets begins a section, and a line
with a mark gives an option of that section its value. Blanks around names and values do not count.
-/

namespace ReviewMentor.Ini

/-- A section: its name, and its options in their order. -/
structure Section where
  name : String
  options : List (String × String)
deriving DecidableEq, Repr

/-- What a line says. -/
inductive Line where
  | blank
  | header (name : List Char)
  | option (name value : List Char)
deriving DecidableEq, Repr

/-- Whether a character may stand between the name of an option and its value. -/
def isMark (c : Char) : Bool := c = '=' || c = ':'

/-- The rest of a line that begins a section. -/
def header? (cs : List Char) : Option Line :=
  match cs.dropWhile (· ≠ ']') with
  | [] => none
  | _ :: after =>
    if after.all Text.isBlank then some (.header (cs.takeWhile (· ≠ ']'))) else none

/-- A line that gives an option its value. -/
def option? (cs : List Char) : Option Line :=
  match cs.dropWhile (!isMark ·) with
  | [] => none
  | _ :: value =>
    some (.option (Text.trimEndChars (cs.takeWhile (!isMark ·))) (Text.trimChars value))

/-- Reads a line, which may be a comment. A line that begins with a blank would go on with the value
before it and is not read; neither is one without a name or a mark. -/
def line? : List Char → Option Line
  | [] => some .blank
  | c :: rest =>
    if (c :: rest).all Text.isBlank || c = '#' || c = ';' then some .blank
    else if c = '[' then header? rest
    else if Text.isBlank c || isMark c then none
    else option? (c :: rest)

/-- The options before the first section, and the sections. -/
def gather : List Line → List (String × String) × List Section
  | [] => ([], [])
  | .blank :: rest => gather rest
  | .header name :: rest => ([], ⟨String.ofList name, (gather rest).1⟩ :: (gather rest).2)
  | .option name value :: rest =>
    ((String.ofList name, String.ofList value) :: (gather rest).1, (gather rest).2)

/-- The lines of a text; a line feed and a carriage return both break a line. -/
def breakLines (cs : List Char) : List (List Char) :=
  (Text.cutAt '\n' cs).flatMap (Text.cutAt '\r')

/-- The sections of a text, in which every option has to stand. -/
def read? (text : String) : Option (List Section) :=
  ((breakLines text.toList).mapM line?).bind fun lines =>
    match gather lines with
    | ([], sections) => some sections
    | (_ :: _, _) => none

variable {cs line key value rest : List Char}

theorem breakLines_append (hn : '\n' ∉ line) (hr : '\r' ∉ line) (rest : List Char) :
    breakLines (line ++ '\n' :: rest) = line :: breakLines rest := by
  rw [breakLines, Text.cutAt_append_mark, Text.cutAt_of_not_mem hn, List.flatMap_append,
    List.flatMap_singleton, Text.cutAt_of_not_mem hr]
  rfl

/-- A line with a mark is an option. -/
theorem line?_option {c : Char} (hfirst : c ∉ ['#', ';', '[']) (hblank : Text.isBlank c = false)
    (hkey : (c :: key).any isMark = false) (value : List Char) :
    line? (c :: key ++ '=' :: value) =
      some (.option (Text.trimEndChars (c :: key)) (Text.trimChars value)) := by
  simp only [List.mem_cons, List.not_mem_nil, or_false, not_or] at hfirst
  have hrun : ∀ d ∈ c :: key, (!isMark d) = true := by simpa using hkey
  have hc : isMark c = false := by simpa using hrun c List.mem_cons_self
  have hstop : ∀ d ∈ ('=' :: value).head?, (!isMark d) = false := by simp [isMark]
  have hoption : option? (c :: key ++ '=' :: value) =
      some (.option (Text.trimEndChars (c :: key)) (Text.trimChars value)) := by
    rw [option?, Text.dropWhile_run hrun hstop, Text.takeWhile_run hrun hstop]
  rw [List.cons_append] at hoption ⊢
  rw [line?, List.all_cons, hblank]
  simp [hfirst, hc, hoption]

end ReviewMentor.Ini

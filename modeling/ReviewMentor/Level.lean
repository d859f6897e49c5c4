import ReviewMentor.Json.Decode
import ReviewMentor.Text.Blank
import ReviewMentor.Text.Case

/-!
# Levels of experience

How much a learner already knows: it decides which findings are shown and how they are explained.
-/

namespace ReviewMentor

/-- How much detail a learner wants. -/
inductive Level where
  | beginner
  | intermediate
  | advanced
deriving DecidableEq, Repr, Inhabited

namespace Level

/-- The word for a level. -/
def name : Level → String
  | beginner => "beginner"
  | intermediate => "intermediate"
  | advanced => "advanced"

/-- The level of a learner of whom nothing is known. -/
def default : Level := intermediate

/-- The level that a word stands for, written exactly so. -/
def named? (s : String) : Option Level :=
  [beginner, intermediate, advanced].find? (·.name = s)

/-- The place of a level among the others. -/
def rank : Level → Nat
  | beginner => 0
  | intermediate => 1
  | advanced => 2

/-- The greater of two levels. -/
def max (a b : Level) : Level :=
  if a.rank ≤ b.rank then b else a

/-- A word that is no level; blanks around it and upper case are gone. -/
structure Unknown where
  word : String
deriving DecidableEq, Repr

/-- What is said about a word that is no level. -/
def Unknown.message (e : Unknown) : String :=
  "unknown experience level '" ++ e.word ++ "'"

/-- The level that a word stands for, in any case and with blanks around it. -/
def parse (s : String) : Except Unknown Level :=
  let word := Text.lower (Text.trim s)
  match named? word with
  | some level => .ok level
  | none => .error ⟨word⟩

/-- Writes a level. -/
def toJson (l : Level) : Json := .string l.name

/-- Reads a level. -/
def read : Json.Decode Level := Json.Draft.word named?

end Level

end ReviewMentor

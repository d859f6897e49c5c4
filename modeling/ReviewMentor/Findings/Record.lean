import ReviewMentor.Json.Basic
import ReviewMentor.Path
import ReviewMentor.Powers

/-!
# Records of analyzers

Taking typed fields out of the records that analyzers print. A record that lacks a field, or has
one of the wrong kind, says which one.
-/

namespace ReviewMentor

/-- What is wrong with a record. -/
inductive RecordError where
  | missing (name : String)
  | wrongType (name expected : String)
deriving DecidableEq, Repr

/-- What is said about a bad record. -/
def RecordError.message : RecordError → String
  | missing name => "missing field '" ++ name ++ "'"
  | wrongType name expected => "field '" ++ name ++ "' should be " ++ expected

namespace Json

/-- The value of a field; `null` counts as missing. -/
def field (name : String) (record : Json) : Except RecordError Json :=
  match record.member? name with
  | none | some .null => .error (.missing name)
  | some value => .ok value

/-- A field that holds a text. -/
def textField (name : String) (record : Json) : Except RecordError String := do
  match (← record.field name).text? with
  | some s => .ok s
  | none => .error (.wrongType name "a string")

/-- A whole number of at most 32 bits. -/
def small? (j : Json) : Option Nat :=
  j.nat?.filter (· < 2 ^ 32)

/-- A field that holds a whole number of at most 32 bits. -/
def smallField (name : String) (record : Json) : Except RecordError Nat := do
  match (← record.field name).small? with
  | some n => .ok n
  | none => .error (.wrongType name "a non-negative integer")

/-- The text of a field, unless it is missing, empty or something else. -/
def textField? (name : String) (record : Json) : Option String :=
  ((record.member? name).bind text?).filter (· ≠ "")

end Json

/-- The root of a project, as it is spelled and without links, if it exists. -/
structure Root where
  path : Path
  canonical? : Option Path
deriving DecidableEq, Repr

namespace Root

/-- A path that an analyzer prints, relative to the root. Absolute paths elsewhere stay as they
are; relative ones lose dots and slashes that say nothing. -/
def relative (root : Root) (raw : String) : String :=
  let path : Path := ⟨raw⟩
  if path.isAbsolute then
    match path.below? root.path with
    | some rest => Path.slashed rest
    | none => match root.canonical?.bind path.below? with
      | some rest => Path.slashed rest
      | none => raw
  else match path.components.dropWhile (· = .here) with
    | [] => raw
    | cs => Path.slashed cs

end Root

end ReviewMentor

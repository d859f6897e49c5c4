import ReviewMentor.Json.Draft

/-!
# TOML values

What a TOML text says: a table of values. A number with a fraction or an exponent is kept as the
nearest double; the special numbers that are not finite have no value. Moments are only known to be
moments.
-/

namespace ReviewMentor

/-- A TOML value. -/
inductive Toml where
  | string (s : List Char)
  | integer (n : Int)
  | float (value : Option Decimal.Binary)
  | boolean (b : Bool)
  | moment
  | array (items : List Toml)
  | table (members : List (List Char × Toml))
deriving Repr, Inhabited

namespace Toml

/-- The name under which a moment hides in what is read as a record. -/
def momentName : List Char := "$__toml_private_datetime".toList

mutual

/-- The same value as a draft, so that records can be read from it. -/
def toDraft : Toml → Json.Draft
  | string s => .string (s.map .char)
  | integer n => .number (toString n).toList
  | float value => .real value
  | boolean b => .bool b
  | moment => .object [(momentName.map .char, .null)]
  | array items => .array (itemsToDraft items)
  | table members => .object (membersToDraft members)

/-- The items of an array as drafts. -/
def itemsToDraft : List Toml → List Json.Draft
  | [] => []
  | v :: rest => toDraft v :: itemsToDraft rest

/-- The members of a table as drafts. -/
def membersToDraft : List (List Char × Toml) → List (List Json.Piece × Json.Draft)
  | [] => []
  | (name, v) :: rest => (name.map .char, toDraft v) :: membersToDraft rest

end

end Toml

end ReviewMentor

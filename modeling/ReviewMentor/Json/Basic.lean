import ReviewMentor.Decimal.Shortest
import ReviewMentor.Ordered

/-!
# JSON values

Values as ordered trees. Whole numbers stay whole: only a number written with a point, an exponent
or too many digits is a floating-point number. An object is a list of members; a value that was
read lists each name once, in code point order.
-/

namespace ReviewMentor

/-- A number of a JSON text. -/
inductive Number where
  | int (value : Int)
  | real (value : Decimal.Binary)
deriving DecidableEq, Repr, Inhabited

/-- A JSON value. -/
inductive Json where
  | null
  | bool (value : Bool)
  | number (value : Number)
  | string (value : String)
  | array (items : List Json)
  | object (members : List (String × Json))
deriving Repr, Inhabited

namespace Json

/-- A whole number. -/
def int (n : Int) : Json := .number (.int n)

/-- A natural number. -/
def nat (n : Nat) : Json := .int n

/-- An array of strings. -/
def strings (items : List String) : Json := .array (items.map .string)

/-- A value that may be missing, as `null` when it is. -/
def optional (encode : α → Json) : Option α → Json
  | none => null
  | some a => encode a

/-- The members in code point order of their names; of several with one name the last counts. -/
def sortMembers (members : List (String × Json)) : List (String × Json) :=
  Ordered.ofPairs members

/-- The member of an object with the given name. -/
def member? (name : String) : Json → Option Json
  | object members => members.lookup name
  | _ => none

/-- The items of an array. -/
def items? : Json → Option (List Json)
  | array items => some items
  | _ => none

/-- The text of a string. -/
def text? : Json → Option String
  | string s => some s
  | _ => none

/-- The value of a whole number that is not negative. -/
def nat? : Json → Option Nat
  | number (.int (.ofNat n)) => some n
  | _ => none

/-- Whether the value is an object. -/
def isObject : Json → Bool
  | object _ => true
  | _ => false

end Json

end ReviewMentor

/-!
# Ordered sets and maps

Sets of texts and maps from texts as lists in code point order, each text once.
-/

namespace ReviewMentor.Ordered

/-- Puts a text into a set. -/
def insert (name : String) : List String → List String
  | [] => [name]
  | other :: rest =>
    if name < other then name :: other :: rest
    else if name = other then other :: rest
    else other :: insert name rest

/-- The set of the texts of a list. -/
def ofList (names : List String) : List String :=
  names.foldl (fun set name => insert name set) []

/-- Puts a value into a map, instead of the one with the same name. -/
def put (name : String) (value : α) : List (String × α) → List (String × α)
  | [] => [(name, value)]
  | (other, old) :: rest =>
    if name < other then (name, value) :: (other, old) :: rest
    else if name = other then (name, value) :: rest
    else (other, old) :: put name value rest

/-- The map of the pairs of a list; of several with one name the last counts. -/
def ofPairs (pairs : List (String × α)) : List (String × α) :=
  pairs.foldl (fun map p => put p.1 p.2 map) []

end ReviewMentor.Ordered

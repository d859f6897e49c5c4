import ReviewMentor.Http.Form
import ReviewMentor.Http.MediaType
import ReviewMentor.Json.Decode

/-!
# Requests and responses

What a client sends and what it gets back.
-/

namespace ReviewMentor.Http

/-- A request. -/
structure Request where
  method : String
  /-- The path, with escapes. -/
  path : String
  /-- What follows the question mark, with escapes. -/
  query : String
  /-- Names in lower case, with their values. -/
  headers : List (String × String)
  body : ByteArray

/-- The body of a response. -/
inductive Body where
  | empty
  | text (content : String)
  | json (content : Json)
  /-- An archive of files, given by their names and contents. -/
  | archive (files : List (String × ByteArray))
  /-- The missing body of a response that would be JSON. -/
  | noJson

/-- A response. -/
structure Response where
  status : Nat
  headers : List (String × String)
  body : Body

namespace Request

/-- The path and what follows it in a target that names a scheme and a host before them. Without a
path, the target is that of the root; without a scheme, there is no path at all. -/
def afterHost (cs : List Char) : List Char :=
  let scheme := cs.takeWhile fun c => c.isAlphanum || "+-.".toList.contains c
  match cs.drop scheme.length with
  | ':' :: '/' :: '/' :: rest =>
    let path := rest.dropWhile fun c => !"/?#".toList.contains c
    if path.head? = some '/' then path else '/' :: path
  | _ => []

/-- The request for a target: a path with an optional query, which a scheme and a host may precede.
What follows a number sign is no part of it. -/
def ofTarget (method target : String) (headers : List (String × String)) (body : ByteArray) :
    Request :=
  let whole := if target.toList.head? = some '/' then target.toList else afterHost target.toList
  let cs := whole.takeWhile (· ≠ '#')
  let path := cs.takeWhile (· ≠ '?')
  { method, path := String.ofList path, query := String.ofList (cs.drop (path.length + 1))
    headers := headers.map fun h => (String.ofList (h.1.toList.map Char.toLower), h.2), body }

/-- The value of a header. -/
def header? (r : Request) (name : String) : Option String :=
  r.headers.lookup name

/-- Whether a character can be shown. -/
def isShown (c : Char) : Bool :=
  (' ' ≤ c && c ≤ '~') || c = '\t'

/-- The value of a header, if it can be shown. -/
def shownHeader? (r : Request) (name : String) : Option String :=
  (r.header? name).filter fun value => value.toList.all isShown

/-- Whether the body is said to be JSON. -/
def isJson (r : Request) : Bool :=
  (r.shownHeader? "content-type").any isJsonType

end Request

namespace Response

/-- A response with JSON. -/
def ofJson (content : Json) : Response := ⟨200, [], .json content⟩

/-- The response to a request that cannot be read. -/
def rejection (status : Nat) : Response := ⟨status, [], .text "The request cannot be read."⟩

/-- A response without a body. -/
def bare (status : Nat) : Response := ⟨status, [], .empty⟩

/-- The response without its body. -/
def withoutBody (r : Response) : Response :=
  { r with body := match r.body with
    | .json _ | .noJson => .noJson
    | _ => .empty }

end Response

end ReviewMentor.Http

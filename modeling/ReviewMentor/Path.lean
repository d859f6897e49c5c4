import ReviewMentor.Text.Split

/-!
# Paths

A path is a text; what it means is the list of its components. Repeated slashes, slashes at the end
and single dots are no components of their own, except a dot at the start of a relative path. Two
dots stay: only who follows the path can tell where they lead.
-/

namespace ReviewMentor

/-- The text of a path. -/
structure Path where
  text : String
deriving DecidableEq, Repr, Inhabited

/-- A component of a path. -/
inductive Component where
  | root
  | here
  | up
  | name (text : String)
deriving DecidableEq, Repr

/-- The text of a component. -/
def Component.text : Component → String
  | root => "/"
  | here => "."
  | up => ".."
  | name s => s

namespace Path

/-- Whether the path starts at the root. -/
def isAbsolute (p : Path) : Bool :=
  match p.text.toList with
  | '/' :: _ => true
  | _ => false

/-- The parts between slashes. -/
def parts (p : Path) : List String :=
  (Text.cut '/' p.text).filter (· ≠ "")

/-- The component that a part is, if it is one. -/
def component? (part : String) : Option Component :=
  if part = "." then none else if part = ".." then some .up else some (.name part)

/-- The components of a path. -/
def components (p : Path) : List Component :=
  let rest := p.parts.filterMap component?
  if p.isAbsolute then .root :: rest
  else match (Text.cut '/' p.text).head? with
    | some "." => .here :: rest
    | _ => rest

/-- Whether the path ends with a slash, so that it can only name a directory. -/
def endsWithSlash (p : Path) : Bool :=
  match p.text.toList.getLast? with
  | some '/' => true
  | _ => false

/-- One path after another; an absolute path replaces what precedes it. -/
def join (base p : Path) : Path :=
  if p.isAbsolute then p
  else if base.text = "" || base.endsWithSlash then ⟨base.text ++ p.text⟩
  else ⟨base.text ++ "/" ++ p.text⟩

/-- A path with a name after it. -/
def child (base : Path) (name : String) : Path :=
  base.join ⟨name⟩

/-- The absolute path of names. -/
def ofNames (names : List String) : Path :=
  ⟨"/" ++ Text.join "/" names⟩

/-- Components joined by slashes. -/
def slashed (cs : List Component) : String :=
  Text.join "/" (cs.map Component.text)

/-- Whether a part between slashes is no component. -/
def isEmptyPart (part : String) : Bool :=
  part = "" || part = "."

/-- The parts up to the last one that is a component; the first part always stays. -/
def trimParts : List String → List String
  | [] => []
  | first :: rest => first :: (rest.reverse.dropWhile isEmptyPart).reverse

/-- The path without its last component; the root and the empty path have none. -/
def parent? (p : Path) : Option Path :=
  match p.components.reverse with
  | [] | .root :: _ => none
  | _ =>
    match trimParts (trimParts (Text.cut '/' p.text)).dropLast with
    | [""] => some ⟨"/"⟩
    | parts => some ⟨Text.join "/" parts⟩

/-- The name at the end of a path. -/
def fileName? (p : Path) : Option String :=
  match p.components.getLast? with
  | some (.name s) => some s
  | _ => none

/-- What follows the last dot of a name that does not only start with a dot. -/
def nameExtension? (name : String) : Option String :=
  let parts := Text.cut '.' name
  match parts.dropLast with
  | [] | [""] => none
  | _ => parts.getLast?

/-- The extension of the name at the end of a path. -/
def extension? (p : Path) : Option String :=
  p.fileName?.bind nameExtension?

/-- The components after those of another path, if they start with them. -/
def below? (p root : Path) : Option (List Component) :=
  let cs := p.components
  let start := root.components
  if start.isPrefixOf cs then some (cs.drop start.length) else none

end Path

end ReviewMentor

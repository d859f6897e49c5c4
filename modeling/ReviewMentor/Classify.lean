import ReviewMentor.Analyzer
import ReviewMentor.Files.Sweep
import ReviewMentor.Text.Case

/-!
# What a project is about

Every file of a project counts once for each kind of project that its name or its path hints at. The
kind with most files wins; a project without hints is of no known kind.
-/

namespace ReviewMentor

/-- How many files hint at each kind of project. -/
structure Scores where
  web : Nat
  embedded : Nat
  security : Nat
deriving DecidableEq, Repr

namespace ProjectKind

/-- The texts in a path that hint at a kind. -/
def markers : ProjectKind → List String
  | web => ["requirements.txt", "pyproject.toml", "django", "flask"]
  | embedded => ["platformio.ini", "makefile", ".ino", ".c"]
  | security => ["auth", "crypto", "security", "jwt"]
  | unknown => []

/-- The kinds that compete; of two with equal scores the earlier one wins. -/
def candidates : List ProjectKind := [web, embedded, security]

/-- Whether one of the texts holds one of the markers of a kind. -/
def hintedBy (kind : ProjectKind) (texts : List String) : Bool :=
  kind.markers.any fun marker => texts.any fun text => Text.contains text marker

end ProjectKind

namespace Scores

/-- The score of a kind. -/
def get (s : Scores) : ProjectKind → Nat
  | .web => s.web
  | .embedded => s.embedded
  | .security => s.security
  | .unknown => 0

/-- Of two kinds the one with the greater score, the first one if they are equal. -/
def better (s : Scores) (best next : ProjectKind) : ProjectKind :=
  if s.get best < s.get next then next else best

/-- The kind with the greatest positive score. -/
def winner (s : Scores) : ProjectKind :=
  ProjectKind.candidates.foldl s.better .unknown

/-- The scores with one more file for a kind. -/
def bump (s : Scores) : ProjectKind → Scores
  | .web => { s with web := s.web + 1 }
  | .embedded => { s with embedded := s.embedded + 1 }
  | .security => { s with security := s.security + 1 }
  | .unknown => s

/-- The texts in which a file of a project is searched for markers, in lower case: its name, and its
path relative to the project. A path that does not start as the project's does is searched as a
whole. -/
def searched (root path : Path) : List String :=
  let relative := match path.below? root with
    | some rest => Path.slashed rest
    | none => path.text
  [Text.lower (path.fileName?.getD ""), Text.lower relative]

/-- The scores with one more file, which counts for every kind that it hints at. -/
def count (root : Path) (s : Scores) (path : Path) : Scores :=
  ProjectKind.candidates.foldl
    (fun s kind => if kind.hintedBy (searched root path) then s.bump kind else s) s

/-- The scores of the files of a project. -/
def ofPaths (root : Path) (paths : List Path) : Scores :=
  paths.foldl (count root) ⟨0, 0, 0⟩

end Scores

namespace FileTree

/-- The paths under which the files of a project are found. A project may be a single file. -/
def projectPaths (t : FileTree) (start : Place) (root : Path) : List Path :=
  match t.find start true root with
  | .error _ => []
  | .ok place =>
    match t.lookup? place with
    | some .directory => (t.sweep place root).map root.descend
    | some (.file _ _) => [root]
    | _ => []

/-- How many files of a project hint at each kind. -/
def scores (t : FileTree) (start : Place) (root : Path) : Scores :=
  .ofPaths root (t.projectPaths start root)

/-- What a project is about. -/
def classify (t : FileTree) (start : Place) (root : Path) : ProjectKind :=
  (t.scores start root).winner

/-- Whether a project is a source file or holds one. -/
def hasSources (t : FileTree) (start : Place) (root : Path) : Bool :=
  match t.find start true root with
  | .error _ => false
  | .ok place =>
    match t.lookup? place with
    | some (.file _ _) => root.extension? = some "py"
    | some .directory =>
      (t.sweep place root).any fun names => names.getLast?.bind Path.nameExtension? = some "py"
    | _ => false

end FileTree

end ReviewMentor

import ReviewMentor.Files.Tree

/-!
# Sweeping directories

Everything below a directory, found by reading the directory and then every directory in it. What is
found has a path that starts as the path of the first directory does, so a directory is read under a
path that gets longer on the way down. A directory whose path is too long for the system is passed
over. Links are neither followed nor found.
-/

namespace ReviewMentor

/-- A path with names after it, one after another. -/
def Path.descend (root : Path) (names : List String) : Path :=
  names.foldl Path.child root

namespace FileTree

/-- The names in a directory, in the order in which they are listed. -/
def listing (t : FileTree) (place : Place) : List String :=
  t.entries.filterMap fun x => if x.1.dropLast = place then x.1.getLast? else none

/-- How many names lead to the deepest place. -/
def depth (t : FileTree) : Nat :=
  t.entries.foldr (fun x deepest => max x.1.length deepest) 0

/-- The files that are found from a directory downwards, by the names that lead to them from the
directory where the sweep began. The number bounds how many directories are read one in another. -/
def sweepFrom (t : FileTree) (d : Place) (root : Path) : Nat → List String → List (List String)
  | 0, _ => []
  | levels + 1, names =>
    if pathLimit ≤ (root.descend names).text.utf8ByteSize then []
    else (t.listing (d ++ names)).flatMap fun name =>
      match t.lookup? (d ++ names ++ [name]) with
      | some (.file _ _) => [names ++ [name]]
      | some .directory => sweepFrom t d root levels (names ++ [name])
      | _ => []

/-- The files that are found below a directory which is reached under a path. -/
def sweep (t : FileTree) (d : Place) (root : Path) : List (List String) :=
  t.sweepFrom d root (t.depth + 1) []

end FileTree

end ReviewMentor

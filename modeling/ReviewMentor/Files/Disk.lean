import ReviewMentor.Files.Tree

/-!
# Work on files

Steps that read and change a file tree and may fail. What was changed before a failure stays
changed.
-/

namespace ReviewMentor

/-- Work on a file tree. -/
abbrev Disk (ε : Type) (α : Type) := ExceptT ε (StateM FileTree) α

namespace Disk

variable {ε α β : Type}

/-- Runs work on a file tree: the tree after it, and what came out. -/
def run (w : Disk ε α) (t : FileTree) : FileTree × Except ε α :=
  let (result, t) := StateT.run (ExceptT.run w) t
  (t, result)

/-- Work given by what it does to a tree. -/
def of (f : FileTree → FileTree × Except ε α) : Disk ε α :=
  ExceptT.mk fun t => let (t, result) := f t; (result, t)

/-- Looks at the tree. -/
def look (f : FileTree → α) : Disk ε α :=
  of fun t => (t, .ok (f t))

/-- Looks at the tree, which may fail. -/
def ask (f : FileTree → Except ε α) : Disk ε α :=
  of fun t => (t, f t)

/-- Changes the tree, or fails and leaves it as it is. -/
def change (f : FileTree → Except ε FileTree) : Disk ε Unit :=
  of fun t => match f t with
    | .ok t => (t, .ok ())
    | .error e => (t, .error e)

/-- Fails. -/
def fail (e : ε) : Disk ε α := throw e

/-- The same work with another account of its failure. -/
def mapError (f : ε → β) (w : Disk ε α) : Disk β α :=
  of fun t => let (t, result) := w.run t; (t, result.mapError f)

/-- The same work, with its failure as a value. -/
def attempt (w : Disk ε α) : Disk β (Except ε α) :=
  of fun t => let (t, result) := w.run t; (t, .ok result)

end Disk

end ReviewMentor

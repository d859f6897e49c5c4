import ReviewMentor.Zip.Archive

/-!
# Writing archives

An archive is written file by file: an entry is started with its name and the method by which it is
packed, and then it is given its bytes. What becomes of the bytes is up to the writer. An export
starts an entry for each file of a directory and reads the file only then, so that a file that
cannot be read ends the export.
-/

namespace ReviewMentor.Zip

/-- The method by which the files of an export are packed. -/
def deflated : Nat := 8

/-- A file on its way into an archive. -/
structure Packing where
  name : String
  method : Nat
  content : ByteArray

/-- Whatever writes archives, by the steps in which it does. -/
structure Writer where
  State : Type
  new : State
  startFile : State → String → Nat → Except ArchiveError State
  write : State → ByteArray → Except ArchiveError State
  finish : State → Except ArchiveError ByteArray

namespace Writer

/-- Writes a file into an archive that was begun. -/
def add (w : Writer) (s : w.State) (f : Packing) : Except ArchiveError w.State := do
  let s ← w.startFile s f.name f.method
  w.write s f.content

/-- The archive of some files. -/
def archive (w : Writer) (files : List Packing) : Except ArchiveError ByteArray := do
  let s ← files.foldlM w.add w.new
  w.finish s

end Writer

/-- The path of a file of an export. Only the file that is exported itself has no name. -/
def exportPath (root : Path) (name : String) : Path :=
  if name = "" then root else root.child name

/-- Reads a file of a directory into an archive that was begun. -/
def addFile (w : Writer) (t : FileTree) (start : Place) (root : Path) (s : w.State)
    (name : String) : Except ArchiveError w.State := do
  let s ← w.startFile s name deflated
  let content ← (t.readBytes start (exportPath root name)).mapError .storage
  w.write s content

/-- The archive of a directory. -/
def buildExport (w : Writer) (t : FileTree) (start : Place) (root : Path) :
    Except ArchiveError ByteArray := do
  let s ← ((exportFiles t start root).map Prod.fst).foldlM (addFile w t start root) w.new
  w.finish s

end ReviewMentor.Zip

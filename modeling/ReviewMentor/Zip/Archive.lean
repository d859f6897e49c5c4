import ReviewMentor.Files.Disk
import ReviewMentor.Zip.Bzip2
import ReviewMentor.Zip.Directory
import ReviewMentor.Zip.Inflate
import ReviewMentor.Zip.LzmaAlone
import ReviewMentor.Zip.Xz
import ReviewMentor.Zip.Zstandard.Frame

/-!
# Archives

Unpacking an archive goes entry by entry and stops at the first one that must not be unpacked. A
record of the directory leads to a local header, and the content lies behind that.
-/

namespace ReviewMentor.Zip

/-- What starts the local header of an entry. -/
def localMark : Nat := 0x04034B50

/-- What can be said about the content of an entry. -/
inductive Content where
  /-- It is locked, packed in an unknown way, or not where it should be. -/
  | refused
  /-- The bytes that can be read, and whether they are all and what they should be. -/
  | bytes (data : ByteArray) (intact : Bool)

/-- An entry of an archive. -/
structure ArchiveEntry where
  name : String
  content : Content

/-- How to unpack what was packed with a method, if the method is known. -/
def method? : Nat → Option (ByteArray → Unpacked)
  | 0 => some fun packed => ⟨packed, true⟩
  | 8 => some (inflate .short)
  | 9 => some (inflate .long)
  | 12 => some Bzip2.unpack
  | 14 => some Lzma.unpackAlone
  | 93 => some Zstandard.unpack
  | 95 => some Xz.unpack
  | _ => none

/-- Where the content behind a local header starts. -/
def contentStart? (data : ByteArray) (header : Nat) : Option Nat := do
  if (← wordAt? data header 4) ≠ localMark then none
  let _ ← bytesAt? data header 30
  let nameSize ← wordAt? data (header + 26) 2
  let extraSize ← wordAt? data (header + 28) 2
  pure (header + 30 + nameSize + extraSize)

/-- The content that a record leads to. It must be complete and have the checksum of the record. -/
def DirectoryRecord.content (r : DirectoryRecord) (data : ByteArray) : Content :=
  let packed? := (contentStart? data r.header).map fun start =>
    data.extract start (min data.size (start + r.packedSize))
  match packed?, method? r.method with
  | some packed, some unpack =>
    if r.isLocked then .refused
    else
      let unpacked := unpack packed
      .bytes unpacked.data (unpacked.isComplete && (Zip.checksum unpacked.data).toNat = r.checksum)
  | _, _ => .refused

/-- The entries of an archive. -/
def entries? (data : ByteArray) : Option (List ArchiveEntry) := do
  let records ← directory? data
  pure (records.map fun r => ⟨r.name, r.content data⟩)

end ReviewMentor.Zip

namespace ReviewMentor

/-- Why an archive cannot be unpacked. -/
inductive ArchiveError where
  /-- It is no archive, or an entry of it is packed in an unknown way. -/
  | invalid
  /-- An entry would lie outside. -/
  | unsafeEntry (name : String)
  /-- The content of an entry is not what it should be. -/
  | damaged
  | storage (cause : FileError)
deriving DecidableEq, Repr

/-- What is said about an archive that cannot be unpacked. -/
def ArchiveError.message : ArchiveError → String
  | invalid => "Invalid zip archive: it cannot be read"
  | unsafeEntry name => "Archive entry '" ++ name ++ "' escapes the extraction directory"
  | damaged => "I/O error: the content of an entry is damaged"
  | storage e => "I/O error: " ++ e.message

end ReviewMentor

namespace ReviewMentor.Zip

/-- Makes a directory and all directories that lead to it. -/
def makeRoom (start : Place) (p : Path) : Disk ArchiveError Unit :=
  Disk.of fun t => let (t, result) := t.makeDirectories start p; (t, result.mapError .storage)

/-- Unpacks an entry into a directory; whether it was a file. -/
def extractEntry (start : Place) (target : Path) (e : ArchiveEntry) : Disk ArchiveError Bool :=
  match e.content with
  | .refused => Disk.fail .invalid
  | .bytes data intact =>
    if !isEnclosed e.name then Disk.fail (.unsafeEntry e.name)
    else do
      let path := target.child e.name
      if isDirectoryName e.name then
        makeRoom start path
        pure false
      else
        match path.parent? with
        | some parent => makeRoom start parent
        | none => pure ()
        Disk.change fun t => (t.writeBytes start path .empty).mapError .storage
        Disk.change fun t => (t.writeBytes start path data).mapError .storage
        if !intact then Disk.fail .damaged
        pure true

/-- Unpacks an archive into a directory; the number of files written. -/
def extract (start : Place) (target : Path) (data : ByteArray) : Disk ArchiveError Nat :=
  match entries? data with
  | none => Disk.fail .invalid
  | some entries => do
    let written ← entries.mapM (extractEntry start target)
    pure (written.count true)

/-- The files of an archive of a directory: each with its name and its bytes. A path to a file gives
one file without a name. -/
def exportFiles (t : FileTree) (start : Place) (root : Path) : List (String × ByteArray) :=
  match t.find start true root with
  | .error _ => []
  | .ok place =>
    match t.lookup? place with
    | some (.file content _) => [("", content)]
    | _ =>
      ((t.filesBelow place).mergeSort fun a b => !b.1.lex a.1).map fun f =>
        (Text.join "/" f.1, f.2)

/-- The name of the archive of a session. -/
def exportName (session : String) : String :=
  "pink-coded-export-" ++ String.ofList (session.toList.take 8) ++ ".zip"

end ReviewMentor.Zip

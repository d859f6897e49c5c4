import ReviewMentor.Zip.Record

/-!
# Directories

An archive is read from its end: the end record leads to the directory of the entries. If numbers
of the end record need more room, a locator in front of it leads to a second one with larger
numbers. What looks like an end record but leads nowhere is passed over.
-/

namespace ReviewMentor.Zip

/-- What starts the end record. -/
def endMark : Nat := 0x06054B50

/-- What starts the end record with larger numbers. -/
def largeEndMark : Nat := 0x06064B50

/-- What starts the locator of the end record with larger numbers. -/
def locatorMark : Nat := 0x07064B50

/-- Where the directory lies, how far everything is moved from where the records say, and how many
records there are. -/
structure Layout where
  directory : Nat
  shift : Nat
  count : Nat

/-- The positions from one to another where the given mark stands. -/
def findMarks (data : ByteArray) (mark first last : Nat) : List Nat :=
  ((List.range (min last data.size - first)).map (first + ·)).filter fun p =>
    wordAt? data p 4 = some mark

/-- An end record. -/
structure EndRecord where
  position : Nat
  disk : Nat
  directoryDisk : Nat
  count : Nat
  total : Nat
  directory : Nat

/-- Reads an end record. -/
def readEnd? (data : ByteArray) (position : Nat) : Option EndRecord := do
  let word := fun offset count => wordAt? data (position + offset) count
  let disk ← word 4 2
  let directoryDisk ← word 6 2
  let count ← word 8 2
  let total ← word 10 2
  let directory ← word 16 4
  let _ ← bytesAt? data (position + 22) (← word 20 2)
  pure { position, disk, directoryDisk, count, total, directory }

namespace EndRecord

/-- The layout that an end record describes, if it leads to a record. -/
def layout? (e : EndRecord) (data : ByteArray) : Option Layout := do
  let shift ←
    if e.total = 0 then some (e.position - e.directory)
    else if e.position ≤ e.directory then none
    else (findMarks data recordMark e.directory e.position).head?.map (· - e.directory)
  if e.disk ≠ e.directoryDisk then none
  pure ⟨e.directory + shift, shift, e.count⟩

/-- Whether numbers of an end record may need more room. -/
def isOverlong (e : EndRecord) : Bool :=
  e.total = overlongCount || e.directory = overlong

end EndRecord

/-- What leads to the end record with larger numbers. -/
structure Locator where
  position : Nat
  directoryDisk : Nat
  target : Nat
  disks : Nat

/-- The locator in front of an end record. -/
def locator? (data : ByteArray) (endPosition : Nat) : Option Locator := do
  if endPosition < 20 then none
  let position := endPosition - 20
  let word := fun offset count => wordAt? data (position + offset) count
  if (← word 0 4) ≠ locatorMark then none
  pure { position, directoryDisk := ← word 4 4, target := ← word 8 8, disks := ← word 16 4 }

/-- An end record with larger numbers. -/
structure LargeEnd where
  position : Nat
  maker : Nat
  needed : Nat
  disk : Nat
  directoryDisk : Nat
  count : Nat
  total : Nat
  directory : Nat

/-- Reads the end record with larger numbers at a position. It reaches up to the locator, agrees
with it, and leaves room for the records. -/
def readLargeEnd? (data : ByteArray) (l : Locator) (position : Nat) : Option LargeEnd := do
  let word := fun offset count => wordAt? data (position + offset) count
  let size ← word 4 8
  let record : LargeEnd :=
    { position, maker := ← word 12 2, needed := ← word 14 2, disk := ← word 16 4,
      directoryDisk := ← word 20 4, count := ← word 24 8, total := ← word 32 8,
      directory := ← word 48 8 }
  if size < 44 || size + 12 ≠ l.position - position then none
  if record.directoryDisk ≠ l.directoryDisk then none
  if position < 46 * record.total + record.directory then none
  pure record

/-- The layout that an end record with larger numbers describes. -/
def LargeEnd.layout? (e : LargeEnd) (l : Locator) : Option Layout :=
  if e.total < e.count || e.maker < e.needed || e.disk ≠ e.directoryDisk then none
  else
    let shift := e.position - l.target
    some ⟨e.directory + shift, shift, e.total⟩

/-- The layout that a locator leads to. -/
def Locator.layout? (l : Locator) (data : ByteArray) : Option Layout := do
  if l.position ≤ l.target || 1 < l.disks then none
  let e ← (findMarks data largeEndMark l.target l.position).findSome? (readLargeEnd? data l)
  e.layout? l

/-- The layout that the end record at a position describes. -/
def layout? (data : ByteArray) (position : Nat) : Option Layout := do
  let e ← readEnd? data position
  if e.isOverlong then
    match locator? data position with
    | some l => l.layout? data
    | none => e.layout? data
  else e.layout? data

/-- Reads records of the directory. -/
def readRecords? (data : ByteArray) (shift : Nat) : Nat → Nat → Option (List DirectoryRecord)
  | 0, _ => some []
  | count + 1, position => do
    let (record, position) ← readRecord? data shift position
    let records ← readRecords? data shift count position
    pure (record :: records)

/-- The records of the directory that the end record at a position leads to. -/
def recordsFrom? (data : ByteArray) (position : Nat) : Option (List DirectoryRecord) := do
  let layout ← layout? data position
  readRecords? data layout.shift layout.count layout.directory

/-- Puts a record in the place of the one with its name, or at the end. -/
def putRecord (records : List DirectoryRecord) (r : DirectoryRecord) : List DirectoryRecord :=
  if records.any (·.name = r.name) then
    records.map fun other => if other.name = r.name then r else other
  else records ++ [r]

/-- The records of the directory, the last one of each name. -/
def directory? (data : ByteArray) : Option (List DirectoryRecord) := do
  let ends := (findMarks data endMark 0 data.size).reverse
  let records ← ends.findSome? (recordsFrom? data)
  pure (records.foldl putRecord [])

end ReviewMentor.Zip

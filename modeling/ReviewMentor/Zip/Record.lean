import ReviewMentor.Zip.Checksum
import ReviewMentor.Zip.Names
import ReviewMentor.Zip.Stream

/-!
# Records of the directory

A record of the directory describes an entry. Extra fields at its end may amend it: sizes that need
more room, names and comments in UTF-8, the method that lies behind a lock.
-/

namespace ReviewMentor.Zip

/-- A record of the directory. -/
structure DirectoryRecord where
  name : String
  rawName : ByteArray
  comment : String
  /-- Whether the content is locked. -/
  isLocked : Bool
  /-- Whether an extra field describes the lock. -/
  hasLock : Bool
  method : Nat
  checksum : Nat
  packedSize : Nat
  size : Nat
  /-- The position of the local header. -/
  header : Nat

/-- The method of locked content; an extra field names the method that lies behind it. -/
def lockedMethod : Nat := 99

/-- What stands for a number that needs more room. -/
def overlong : Nat := 0xFFFFFFFF

/-- What stands for a count that needs more room. -/
def overlongCount : Nat := 0xFFFF

/-- Numbers of 64 bits stay below this. -/
def wordBound : Nat := 2 ^ 64

/-- Reading extra fields, which amend a record. -/
abbrev Amending (α : Type) := ExceptT Fault (StateT DirectoryRecord (StateM Stream)) α

namespace Amending

variable {α : Type}

/-- Reads from the extra fields. -/
def read (reading : Unpacking α) : Amending α := fun r s =>
  match reading s with
  | (result, s) => ((result, r), s)

/-- The number of some bytes, the lowest one first. -/
def word (count : Nat) : Amending Nat := read (Unpacking.word count)

/-- The next bytes. -/
def bytes (count : Nat) : Amending ByteArray :=
  read do
    let s ← get
    let start := s.bytesRead
    if s.packed.size < start + count then throw .unfinished
    set (s.advance (8 * count))
    pure (s.packed.extract start (start + count))

/-- Gives up unless a condition holds. -/
def require (condition : Bool) : Amending Unit := read (Unpacking.require condition)

/-- Numbers that need more room. -/
def largeNumbers (length : Nat) : Amending Unit := do
  let holdsAll := 24 ≤ length
  let hasSize := holdsAll || (← get).size = overlong
  if hasSize then
    let size ← word 8
    modify ({ · with size })
  let hasPackedSize := holdsAll || (← get).packedSize = overlong
  if hasPackedSize then
    let packedSize ← word 8
    modify ({ · with packedSize })
  let hasHeader := holdsAll || (← get).header = overlong
  if hasHeader then
    let header ← word 8
    modify ({ · with header })
  let used := 8 * [hasSize, hasPackedSize, hasHeader].count true
  require (used ≤ length)
  let _ ← bytes (length - used)

/-- Times, counted finely. -/
def fineTimes (length : Nat) : Amending Unit := do
  require (length = 32)
  let _ ← word 4
  require ((← word 2) = 1)
  require ((← word 2) = 24)
  let _ ← bytes 24

/-- Times, counted in seconds. -/
def times (length : Nat) : Amending Unit := do
  let flags ← word 1
  let count := [flags.testBit 0, flags.testBit 1, flags.testBit 2].count true
  require (flags < 8 && (length = 5 || length = 1 + 4 * count))
  let _ ← bytes (length - 1)

/-- Text in UTF-8 that replaces other text with a given checksum. -/
def replacement (length : Nat) (replaced : ByteArray) : Amending (ByteArray × String) := do
  let _ ← word 1
  let check ← word 4
  require (5 ≤ length)
  let content ← bytes (length - 5)
  require ((Zip.checksum replaced).toNat = check)
  match String.fromUTF8? content with
  | some text => pure (content, text)
  | none => read Unpacking.corrupt

/-- The method behind a lock. -/
def lock (length : Nat) : Amending Unit := do
  require (length = 7)
  let version ← word 2
  let vendor ← word 2
  let mode ← word 1
  let method ← word 2
  require (vendor = 0x4541 && (version = 1 || version = 2) && 1 ≤ mode && mode ≤ 3)
  modify ({ · with method, isLocked := true, hasLock := true })

/-- An extra field. -/
def field : Amending Unit := do
  let kind ← word 2
  let length ← word 2
  match kind with
  | 0x0001 => largeNumbers length
  | 0x000A => fineTimes length
  | 0x5455 => times length
  | 0x6375 =>
    let (_, comment) ← replacement length (← get).comment.toUTF8
    modify ({ · with comment })
  | 0x7075 =>
    let (rawName, name) ← replacement length (← get).rawName
    modify ({ · with rawName, name })
  | 0x9901 => lock length
  | _ => let _ ← bytes length

/-- All extra fields. -/
def fields : Nat → Amending Unit
  | 0 => pure ()
  | fuel + 1 => do
    if ← read Unpacking.isAtEnd then pure ()
    else
      field
      fields fuel

end Amending

/-- A record with what its extra fields amend; they may break off. There is none if an extra field
makes no sense, or if none tells the method behind a lock. -/
def DirectoryRecord.amend? (r : DirectoryRecord) (extra : ByteArray) : Option DirectoryRecord :=
  let ((result, amended), _) := (Amending.fields (extra.size + 1)).run.run r |>.run (.start extra)
  let isRead := match result with
    | .ok () | .error .unfinished => true
    | .error .surplus | .error .corrupt => false
  if isRead && (amended.method ≠ lockedMethod || amended.hasLock) then some amended else none

/-- The number of some bytes at a position, the lowest one first. -/
def wordAt? (data : ByteArray) (position : Nat) : Nat → Option Nat
  | 0 => some 0
  | count + 1 => do
    let low ← data[position]?
    let rest ← wordAt? data (position + 1) count
    pure (low.toNat + 256 * rest)

/-- Some bytes at a position, if the data hold so many. -/
def bytesAt? (data : ByteArray) (position count : Nat) : Option ByteArray :=
  if position + count ≤ data.size then some (data.extract position (position + count)) else none

/-- What starts a record of the directory. -/
def recordMark : Nat := 0x02014B50

/-- Reads a record of the directory; the record and the position after it. All positions are moved
by some bytes from where the record says. -/
def readRecord? (data : ByteArray) (shift position : Nat) : Option (DirectoryRecord × Nat) := do
  let word := fun offset count => wordAt? data (position + offset) count
  if (← word 0 4) ≠ recordMark then none
  let flags ← word 8 2
  let method ← word 10 2
  let checksum ← word 16 4
  let packedSize ← word 20 4
  let size ← word 24 4
  let nameSize ← word 28 2
  let extraSize ← word 30 2
  let commentSize ← word 32 2
  let header ← word 42 4
  let rawName ← bytesAt? data (position + 46) nameSize
  let extra ← bytesAt? data (position + 46 + nameSize) extraSize
  let comment ← bytesAt? data (position + 46 + nameSize + extraSize) commentSize
  let text := nameText (flags.testBit 11)
  let record : DirectoryRecord :=
    { name := text rawName, rawName, comment := text comment, isLocked := flags.testBit 0
      hasLock := false, method, checksum, packedSize, size, header }
  let record ← record.amend? extra
  if wordBound ≤ record.header + shift then none
  pure ({ record with header := record.header + shift },
    position + 46 + nameSize + extraSize + commentSize)

end ReviewMentor.Zip

import ReviewMentor.Zip.Checksum
import ReviewMentor.Zip.Lzma
import ReviewMentor.Zip.Sha256

/-!
# Checked blocks

Data packed in blocks between a header and a footer. Behind the last block an index repeats how
long every block is. A block holds chunks, which are coded by chances or stand as they are, and
ends with a checksum of its content.
-/

namespace ReviewMentor.Zip.Xz

open Lzma

/-- The bytes from a position up to where reading is. -/
def since (position : Nat) : Unpacking ByteArray := do
  let s ← get
  pure (s.packed.extract position s.bytesRead)

/-- Reads bytes that must be zeros. -/
def zeros : Nat → Unpacking Unit
  | 0 => pure ()
  | count + 1 => do
    Unpacking.require ((← Unpacking.byte) = 0)
    zeros count

/-- Reads zeros until the bytes since a position fill groups of four. -/
def pad (position : Nat) : Unpacking Unit := do
  zeros ((4 - ((← get).bytesRead - position) % 4) % 4)

/-- Reads the checksum of the bytes from one position to another. -/
def checkBytes (first last : Nat) : Unpacking Unit := do
  let found := checksum ((← get).packed.extract first last)
  Unpacking.require ((← Unpacking.word 4) = found.toNat)

/-- Reads a number in groups of seven bits, the lowest one first; a bit tells that more follow.
The last group of several is not zero. -/
def readSize : Nat → Unpacking Nat
  | 0 => Unpacking.corrupt
  | count + 1 => do
    let b := (← Unpacking.byte).toNat
    if b < 128 then pure b
    else
      let rest ← readSize count
      Unpacking.require (rest ≠ 0)
      pure (b - 128 + 128 * rest)

/-- How many groups a number has at most. -/
def mostGroups : Nat := 9

/-- Reads the mark of the start and the flags, which tell the kind of the checksums. -/
def readStart : Unpacking Nat := do
  let mark ← Unpacking.word 6
  let flags ← Unpacking.word 2
  checkBytes 6 8
  Unpacking.require (mark = 0x005A587A37FD && flags % 256 = 0 && flags < 0x1000)
  pure (flags / 256)

/-- How many bytes a checksum of a kind has. -/
def checkSize (kind : Nat) : Nat :=
  [0, 4, 4, 4, 8, 8, 8, 16, 16, 16, 32, 32, 32, 64, 64, 64].getD kind 0

/-- The number of bytes as a byte array, the lowest one first. -/
def littleEndian (count n : Nat) : ByteArray :=
  ⟨((List.range count).map fun k => UInt8.ofNat (n / 256 ^ k)).toArray⟩

/-- The checksum of a kind. Checksums of unknown kinds are not looked at. -/
def check? (kind : Nat) (data : ByteArray) : Option ByteArray :=
  match kind with
  | 1 => some (littleEndian 4 (checksum data).toNat)
  | 4 => some (littleEndian 8 (longChecksum data).toNat)
  | 10 => some (Sha256.hash data)
  | _ => none

/-- What the header of a block says. -/
structure BlockHeader where
  packedSize? : Option Nat
  size? : Option Nat
  /-- How far back bytes may be repeated. -/
  reach : Nat

/-- Reads a number if a flag is set. -/
def readSizeIf (flag : Bool) : Unpacking (Option Nat) :=
  if flag then some <$> readSize mostGroups else pure none

/-- How far back bytes may be repeated, as one byte tells it. -/
def reach? (b : Nat) : Option Nat :=
  if 40 < b then none
  else
    let reach := if b = 40 then 2 ^ 32 - 1 else (2 + b % 2) * 2 ^ (b / 2 + 11)
    some ((reach + 15) / 16 * 16)

/-- Reads what is in the header of a block, of which only one way of packing is known. -/
def readFields : Unpacking BlockHeader := do
  let flags := (← Unpacking.byte).toNat
  Unpacking.require (flags % 64 = 0)
  let packedSize? ← readSizeIf (flags.testBit 6)
  let size? ← readSizeIf (flags.testBit 7)
  Unpacking.require ((← readSize mostGroups) = 0x21 && (← readSize mostGroups) = 1)
  let reach ← Unpacking.known (reach? (← Unpacking.byte).toNat)
  Unpacking.require (packedSize?.all (0 < ·))
  pure ⟨packedSize?, size?, reach⟩

/-- Skips some bytes. -/
def skip : Nat → Unpacking Unit
  | 0 => pure ()
  | count + 1 => do
    let _ ← Unpacking.byte
    skip count

/-- Reads the header of a block of a given length, the first byte of which was read. -/
def readBlockHeader (length : Nat) : Unpacking BlockHeader := do
  let first := (← get).bytesRead
  let last := first + length - 5
  skip (length - 5)
  checkBytes (first - 1) last
  let s ← get
  let data := s.packed.extract first last
  match ExceptT.run (readFields <* (do zeros (data.size - (← get).bytesRead))) (.start data) with
  | (.ok header, _) => pure header
  | (.error _, _) => Unpacking.corrupt

/-- What one chunk leaves to the next. -/
structure Chunks where
  coder? : Option Coder
  /-- Where the output starts that may be repeated. -/
  start? : Option Nat

/-- Reads steps until the output has come to its limit. -/
def readSteps (limit : Nat) : Nat → Coding Unit
  | 0 => Unpacking.corrupt
  | fuel + 1 => do
    if limit ≤ (← getThe Stream).output.size then pure ()
    else
      if !(← Coding.step limit) then Unpacking.corrupt
      readSteps limit fuel

/-- Reads coded bytes; all of them are used up, and nothing is left of their number. -/
def readCoded (limit : Nat) : Coding Unit := do
  Unpacking.require ((← Unpacking.byte) = 0)
  Coding.begin
  readSteps limit (limit + 1)
  Coding.widen
  let c ← get
  Unpacking.require (c.code = 0 && (← getThe Stream).bytesRead = c.stop)

/-- Reads the number of two bytes, the highest one first. -/
def highWord : Unpacking Nat := do
  let high ← Unpacking.byte
  let low ← Unpacking.byte
  pure (256 * high.toNat + low.toNat)

/-- Reads chunks up to the end of a block. -/
def readChunks (reach : Nat) : Nat → Chunks → Unpacking Unit
  | 0, _ => throw .unfinished
  | fuel + 1, chunks => do
    let control := (← Unpacking.byte).toNat
    if control = 0 then pure ()
    else
      let startsAnew := control = 1 || 0xE0 ≤ control
      let output := (← get).output.size
      let start ← Unpacking.known (if startsAnew then some output else chunks.start?)
      let coder? := if startsAnew then none else chunks.coder?
      if control < 0x80 then
        Unpacking.require (control ≤ 2)
        Unpacking.copy Stream.fillsPortion ((← highWord) + 1)
        readChunks reach fuel ⟨coder?, some start⟩
      else
        Unpacking.require (0xC0 ≤ control || coder?.isSome)
        let size := control % 32 * 65536 + (← highWord) + 1
        let packedSize := (← highWord) + 1
        let coder ←
          if 0xC0 ≤ control then do
            let b ← Unpacking.byte
            let properties ← Unpacking.known (Properties.ofByte? b.toNat)
            Unpacking.require (properties.byteBits + properties.literalBits ≤ 4)
            pure (Coder.fresh properties)
          else do
            let coder ← Unpacking.known coder?
            pure (if 0xA0 ≤ control then .fresh coder.properties else coder)
        let stop := (← get).bytesRead + packedSize
        let (_, coder) ← (readCoded (output + size)).run { coder with stop, start, reach }
        readChunks reach fuel ⟨some coder, some start⟩

/-- How long a block is: packed with its header and checksum, and unpacked. -/
structure BlockSizes where
  packed : Nat
  content : Nat
deriving DecidableEq

/-- Reads the chunks of a block and its checksum. -/
def readBlock (kind headerSize : Nat) : Unpacking BlockSizes := do
  let header ← readBlockHeader headerSize
  let s ← get
  let first := s.bytesRead
  let start := s.output.size
  readChunks header.reach (s.packed.size + 1) ⟨none, none⟩
  let s ← get
  let packedSize := s.bytesRead - first
  let size := s.output.size - start
  Unpacking.require (header.packedSize?.all (packedSize = ·) && header.size?.all (size = ·))
  pad first
  let position := (← get).bytesRead
  skip (checkSize kind)
  let found ← since position
  Unpacking.require ((check? kind (s.output.extract start s.output.size)).all fun check =>
    check.data = found.data)
  pure ⟨headerSize + packedSize + checkSize kind, size⟩

/-- Reads the index, which agrees with the blocks. -/
def readIndex (blocks : List BlockSizes) : Unpacking Unit := do
  let first := (← get).bytesRead - 1
  Unpacking.require ((← readSize mostGroups) = blocks.length)
  let found ← blocks.mapM fun _ => do
    pure (BlockSizes.mk (← readSize mostGroups) (← readSize mostGroups))
  Unpacking.require (found = blocks)
  pad first
  let last := (← get).bytesRead
  checkBytes first last

/-- Reads the footer, which agrees with the flags and the length of the index. -/
def readEnd (kind indexSize : Nat) : Unpacking Unit := do
  let first := (← get).bytesRead
  let check ← Unpacking.word 4
  let length ← Unpacking.word 4
  let flags ← Unpacking.word 2
  let mark ← Unpacking.word 2
  let found := checksum ((← get).packed.extract (first + 4) (first + 10))
  Unpacking.require (mark = 0x5A59 && check = found.toNat && flags = 256 * kind &&
    4 * (length + 1) = indexSize)

/-- Reads blocks, the index and the footer. -/
def readBlocks (kind : Nat) : Nat → List BlockSizes → Unpacking Unit
  | 0, _ => throw .unfinished
  | fuel + 1, blocks => do
    let first := (← get).bytesRead
    let length := (← Unpacking.byte).toNat
    if length = 0 then
      readIndex blocks.reverse
      readEnd kind ((← get).bytesRead - first)
    else
      let block ← readBlock kind (4 * (length + 1))
      readBlocks kind fuel (block :: blocks)

/-- Reads data from their start; nothing may follow them. -/
def stream : Unpacking Unit := do
  let kind ← readStart
  readBlocks kind ((← get).packed.size + 1) []
  if !(← Unpacking.isAtEnd) then throw .surplus

/-- What packed data stand for. -/
def unpack (packed : ByteArray) : Unpacked := Unpacking.run false stream packed

end ReviewMentor.Zip.Xz

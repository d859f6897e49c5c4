import ReviewMentor.Zip.Zstandard.Digest
import ReviewMentor.Zip.Zstandard.Sequences

/-!
# Frames

Data packed in frames, one after the other, some of which are only to be skipped. A frame holds
blocks up to a last one. A short frame that lies in one portion is unpacked as a whole; all other
frames are unpacked block by block.
-/

namespace ReviewMentor.Zip.Zstandard

/-- What starts a frame. -/
def frameMark : Nat := 0xFD2FB528

/-- What starts a frame that is skipped; its last four bits may be any. -/
def skippedMark : Nat := 0x184D2A50

/-- The largest window. -/
def mostWindow : Nat := 2 ^ 27 + 1

/-- The most bytes of a block. -/
def mostBlock : Nat := 128 * 1024

/-- The header of a frame. -/
structure Header where
  window : Nat
  size? : Option Nat
  isChecked : Bool

/-- The most bytes of a block of a frame. -/
def Header.blockLimit (h : Header) : Nat := min h.window mostBlock

/-- Reads the header of a frame. -/
def readHeader : Unpacking Header := do
  let flags := (← Unpacking.byte).toNat
  let isSingle := flags.testBit 5
  let shape := if isSingle then 0 else 1
  let shape := (← Unpacking.word shape)
  let dictionary ← Unpacking.word ([0, 1, 2, 4].getD (flags % 4) 0)
  let size? ← match flags / 64, isSingle with
    | 0, false => pure none
    | 0, true => some <$> Unpacking.word 1
    | 1, _ => (some <| · + 256) <$> Unpacking.word 2
    | 2, _ => some <$> Unpacking.word 4
    | _, _ => some <$> Unpacking.word 8
  let windowLog := shape / 8 + 10
  Unpacking.require (!flags.testBit 3 && windowLog ≤ 31 && dictionary = 0)
  let window := 2 ^ windowLog + 2 ^ windowLog / 8 * (shape % 8)
  pure ⟨if isSingle then size?.getD 0 else window, size?, flags.testBit 2⟩

/-- The kind of a block, its size, and whether it is the last one. -/
structure BlockHeader where
  isLast : Bool
  kind : Nat
  size : Nat

/-- The header of a block that a number stands for. -/
def BlockHeader.ofNat (n : Nat) : BlockHeader := ⟨n % 2 = 1, n / 2 % 4, n / 8⟩

/-- How many bytes stand for the content of a block. -/
def BlockHeader.packedSize (h : BlockHeader) : Nat := if h.kind = 1 then 1 else h.size

/-- Whether the blocks from a position on come to their end before another position. -/
def endsBefore (data : ByteArray) (isChecked : Bool) (stop : Nat) : Nat → Nat → Bool
  | 0, _ => false
  | fuel + 1, position =>
    if stop < position + 3 then false
    else
      let h := BlockHeader.ofNat (bytesFrom data position 3)
      let next := position + 3 + h.packedSize
      if stop < next || h.kind = 3 then false
      else if h.isLast then next + (if isChecked then 4 else 0) ≤ stop
      else endsBefore data isChecked stop fuel next

/-- Lets the output leave if it does not fit into a portion. -/
def settle (s : Stream) : Stream :=
  if portion < s.output.size - s.delivered then s.deliver else s

/-- A frame that is being unpacked. -/
structure Frame where
  header : Header
  /-- Where the output of the frame starts. -/
  start : Nat
  /-- Whether the frame is unpacked as a whole. -/
  isWhole : Bool

/-- Reads the next bytes. -/
def readBytes : Nat → ByteArray → Unpacking ByteArray
  | 0, found => pure found
  | count + 1, found => do
    let b ← Unpacking.byte
    readBytes count (found.push b)

/-- Unpacks a block. Where a frame is unpacked block by block, no block is longer than the window
allows, and together they are not longer than the frame is said to be. -/
def Frame.block (f : Frame) (h : BlockHeader) (m : Memory) : Unpacking Memory := do
  let limit := f.header.blockLimit
  let before := (← get).output.size
  Unpacking.require (f.isWhole || h.packedSize ≤ limit)
  let m ← match h.kind with
    | 0 =>
      Unpacking.copy (fun _ => false) h.size
      pure m
    | 1 =>
      let b ← Unpacking.byte
      Unpacking.require (f.isWhole || h.size ≤ limit)
      modify fun s => { s with output := (List.replicate h.size b).foldl ByteArray.push s.output }
      pure m
    | 2 =>
      Unpacking.require (h.size ≤ limit)
      let data ← readBytes h.size .empty
      let (m, output) ← Unpacking.known (m.block? limit f.start data (← get).output)
      modify ({ · with output })
      pure m
    | _ => Unpacking.corrupt
  let after := (← get).output.size
  Unpacking.require (f.isWhole ||
    after - before ≤ limit && f.header.size?.all (after - f.start ≤ ·))
  if !f.isWhole then modify settle
  pure m

/-- Unpacks blocks up to the last one. The size of a frame that is unpacked block by block is not
looked at if the last block is empty. -/
def Frame.blocks (f : Frame) : Nat → Memory → Unpacking Unit
  | 0, _ => throw .unfinished
  | fuel + 1, m => do
    let h := BlockHeader.ofNat (← Unpacking.word 3)
    let m ← f.block h m
    if !h.isLast then f.blocks fuel m
    else
      let size := (← get).output.size - f.start
      Unpacking.require (!f.isWhole && h.packedSize = 0 || f.header.size?.all (size = ·))

/-- Unpacks a frame behind its mark. -/
def frame : Unpacking Unit := do
  let begun := (← get).bytesRead
  let header ← readHeader
  let s ← get
  let stop := min s.packed.size ((begun - 4) / portion * portion + portion)
  let isWhole := header.size?.any (· ≤ portion) &&
    endsBefore s.packed header.isChecked stop (s.packed.size + 1) s.bytesRead
  Unpacking.require (isWhole || header.window ≤ mostWindow)
  let f : Frame := ⟨header, s.output.size, isWhole⟩
  f.blocks (s.packed.size + 1) .fresh
  if header.isChecked then
    let check ← Unpacking.word 4
    let s ← get
    let found := digest (s.output.extract f.start s.output.size)
    Unpacking.require (found.toNat % 2 ^ 32 = check)
  modify Stream.deliver

/-- Skips some bytes. -/
def skip : Nat → Unpacking Unit
  | 0 => pure ()
  | count + 1 => do
    let _ ← Unpacking.byte
    skip count

/-- Unpacks frames up to the end of the data. -/
def frames : Nat → Unpacking Unit
  | 0 => throw .unfinished
  | fuel + 1 => do
    let mark ← Unpacking.word 4
    if mark / 16 = skippedMark / 16 then skip (← Unpacking.word 4)
    else
      Unpacking.require (mark = frameMark)
      frame
    if !(← Unpacking.isAtEnd) then frames fuel

/-- What packed data stand for. -/
def unpack (packed : ByteArray) : Unpacked :=
  Unpacking.run false (frames (packed.size + 1)) packed

end ReviewMentor.Zip.Zstandard

import ReviewMentor.Zip.Lzma

/-!
# Coded data alone

Data coded by chances behind a short header. What is unpacked is collected in a window, and leaves
only when the window is full; what is left in it at the end is lost.
-/

namespace ReviewMentor.Zip.Lzma

/-- The smallest window. -/
def leastWindow : Nat := 4096

/-- How many bytes one step may need. -/
def mostNeeded : Nat := 20

/-- More steps than may be coded in one byte: no chance is better than 2017 out of 2048. -/
def mostSteps : Nat := 512

/-- The length of the header, with what a coder starts with. -/
def headerSize : Nat := 18

/-- The size that stands for an unknown size. -/
def unknownSize : Nat := 2 ^ 64 - 1

/-- The result of reading, even if it fails. -/
def attempt {α : Type} (reading : Unpacking α) : Unpacking (Except Fault α) := fun s =>
  let (result, s) := reading s
  (.ok result, s)

/-- Reads a step. The end may be marked only where the bytes end, too. -/
def stepOrEnd (limit : Nat) : Coding Bool := do
  let goesOn ← Coding.step limit
  Coding.widen
  let c ← get
  if !goesOn && !(c.code = 0 && c.stop ≤ (← getThe Stream).bytesRead) then Unpacking.corrupt
  pure goesOn

/-- Reads steps up to the end. A step that fails near the end may only lack bytes. -/
def steps (size : Nat) : Nat → Coder → Unpacking Unit
  | 0, _ => pure ()
  | fuel + 1, c => do
    let s ← get
    let left := s.packed.size - s.bytesRead
    if size ≠ unknownSize && size ≤ s.output.size then Unpacking.require (left = 0)
    else
      match ← attempt ((stepOrEnd unknownSize).run c) with
      | .ok (true, c) => steps size fuel c
      | .ok (false, _) => pure ()
      | .error e => if left < mostNeeded then set s else throw e

/-- Reads the header and steps up to the end. Data that break off in the header hold nothing. -/
def alone : Unpacking Unit := do
  let properties ← Unpacking.known (Properties.ofByte? (← Unpacking.byte).toNat)
  let stop := (← get).packed.size
  if stop < headerSize then throw .unfinished
  let reach ← Unpacking.word 4
  let size ← Unpacking.word 8
  let _ ← Unpacking.byte
  let (_, c) ← Coding.begin.run
    { Coder.fresh properties with stop, reach := max leastWindow reach, isFull := fun _ => false }
  steps size (mostSteps * (stop + 1)) c

/-- What packed data stand for. -/
def unpackAlone (packed : ByteArray) : Unpacked :=
  let window := max leastWindow
    ((List.range 4).foldr (fun k n => (packed.data.getD (k + 1) 0).toNat + 256 * n) 0)
  let unpacked := Unpacking.run true alone packed
  { unpacked with data := unpacked.data.extract 0 (unpacked.data.size / window * window) }

end ReviewMentor.Zip.Lzma

import ReviewMentor.Powers

/-!
# Streams

Packed data that are read from the start, bit by bit or byte by byte, and what was unpacked from
them so far. Packed data come in portions, and what is unpacked leaves in portions, too. When the
data turn out to make no sense, what has not left yet is lost. So a stream knows how much of its
output is delivered whatever comes next; all of it is when a new portion of packed data is needed.
-/

namespace ReviewMentor.Zip

/-- Why packed data cannot be unpacked. -/
inductive Fault where
  /-- The data break off. -/
  | unfinished
  /-- Something follows the end of the data. -/
  | surplus
  /-- The data make no sense. -/
  | corrupt
deriving DecidableEq, Repr

/-- Packed data, and what was unpacked from them. -/
structure Stream where
  packed : ByteArray
  /-- How many bits were read. -/
  position : Nat
  output : ByteArray
  /-- How many bytes of the output have left. -/
  delivered : Nat

/-- The size of a portion, of packed data and of unpacked ones. -/
def portion : Nat := 8192

namespace Stream

/-- The start of packed data. -/
def start (packed : ByteArray) : Stream := ⟨packed, 0, .empty, 0⟩

/-- How many bytes were read or begun. -/
def bytesRead (s : Stream) : Nat := (s.position + 7) / 8

/-- Lets all of the output leave. -/
def deliver (s : Stream) : Stream := { s with delivered := s.output.size }

/-- Moves on by some bits; the output leaves before the first bit of a new portion. -/
def advance (count : Nat) (s : Stream) : Stream :=
  let s := if s.position % (8 * portion) = 0 then s.deliver else s
  { s with position := s.position + count }

/-- Puts out a byte; the output leaves before it if it fills the room there is. -/
def put (isFull : Stream → Bool) (b : UInt8) (s : Stream) : Stream :=
  let s := if isFull s then s.deliver else s
  { s with output := s.output.push b }

/-- Whether as much output as fits into a portion has not left. -/
def fillsPortion (s : Stream) : Bool := s.output.size = s.delivered + portion

/-- The byte that was put out some bytes ago; before the first byte there are zeros. -/
def back (distance : Nat) (s : Stream) : UInt8 :=
  if distance ≤ s.output.size then s.output.get! (s.output.size - distance) else 0

/-- Puts out bytes again that were put out some bytes ago. -/
def repeatBack (isFull : Stream → Bool) (distance : Nat) : Nat → Stream → Stream
  | 0, s => s
  | count + 1, s => repeatBack isFull distance count (s.put isFull (s.back distance))

end Stream

/-- Reading a stream. -/
abbrev Unpacking (α : Type) := ExceptT Fault (StateM Stream) α

/-- What unpacking yields: the bytes delivered, and whether it came to a regular end. -/
structure Unpacked where
  data : ByteArray
  isComplete : Bool

namespace Unpacking

variable {α : Type}

/-- Reads with a function. -/
def of (f : Stream → Except Fault α × Stream) : Unpacking α := f

/-- The next bit, where bytes start at their low end. -/
def bit : Unpacking Nat := of fun s =>
  if h : s.position / 8 < s.packed.size then
    let bit := (s.packed[s.position / 8].toNat >>> (s.position % 8)) % 2
    (.ok bit, s.advance 1)
  else (.error .unfinished, s)

/-- A number of some bits, the lowest one first. -/
def bits : Nat → Unpacking Nat
  | 0 => pure 0
  | count + 1 => do
    let low ← bit
    let rest ← bits count
    pure (low + 2 * rest)

/-- The next bit, where bytes start at their high end. -/
def highBit : Unpacking Nat := of fun s =>
  if h : s.position / 8 < s.packed.size then
    let bit := (s.packed[s.position / 8].toNat >>> (7 - s.position % 8)) % 2
    (.ok bit, s.advance 1)
  else (.error .unfinished, s)

/-- Adds bits to a number, the highest one first. -/
def highBitsAfter (value : Nat) : Nat → Unpacking Nat
  | 0 => pure value
  | count + 1 => do
    let next ← highBit
    highBitsAfter (2 * value + next) count

/-- A number of some bits, the highest one first. -/
def highBits (count : Nat) : Unpacking Nat := highBitsAfter 0 count

/-- Goes to the start of the next byte. -/
def align : Unpacking Unit := modify fun s => { s with position := 8 * s.bytesRead }

/-- The next byte. Reading is at the start of one. -/
def byte : Unpacking UInt8 := of fun s =>
  if h : s.position / 8 < s.packed.size then (.ok s.packed[s.position / 8], s.advance 8)
  else (.error .unfinished, s)

/-- The number of some bytes, the lowest one first. -/
def word : Nat → Unpacking Nat
  | 0 => pure 0
  | count + 1 => do
    let low ← byte
    let rest ← word count
    pure (low.toNat + 256 * rest)

/-- Puts some bytes of the packed data out as they are. -/
def copy (isFull : Stream → Bool) : Nat → Unpacking Unit
  | 0 => pure ()
  | count + 1 => do
    let b ← byte
    modify (·.put isFull b)
    copy isFull count

/-- Data that make no sense. -/
def corrupt : Unpacking α := throw .corrupt

/-- Gives up unless a condition holds. -/
def require (condition : Bool) : Unpacking Unit :=
  if condition then pure () else corrupt

/-- A value that must be there. -/
def known (value? : Option α) : Unpacking α :=
  match value? with
  | some value => pure value
  | none => corrupt

/-- Whether all bytes were read or begun. -/
def isAtEnd : Unpacking Bool := do
  let s ← get
  pure (s.packed.size ≤ s.bytesRead)

/-- What reading packed data to their end yields. Of data that make no sense only what has left is
delivered; other data are delivered as far as they go, which may be a regular end, too. -/
def run (mayBreakOff : Bool) (read : Unpacking Unit) (packed : ByteArray) : Unpacked :=
  match ExceptT.run read (Stream.start packed) with
  | (.ok (), s) => ⟨s.output, true⟩
  | (.error .unfinished, s) => ⟨s.output, mayBreakOff⟩
  | (.error .surplus, s) => ⟨s.output, false⟩
  | (.error .corrupt, s) => ⟨s.output.extract 0 s.delivered, false⟩

end Unpacking

end ReviewMentor.Zip

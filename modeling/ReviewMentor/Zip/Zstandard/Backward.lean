import ReviewMentor.Powers

/-!
# Bits from the end

Bits that are read from the end of data. The highest set bit of the last byte only marks where
reading starts.
-/

namespace ReviewMentor.Zip.Zstandard

/-- Data of which some bits are left, counted from the start. -/
structure Backward where
  data : ByteArray
  left : Nat

/-- The number of some bytes from a position on, the lowest one first. -/
def bytesFrom (data : ByteArray) (position : Nat) : Nat → Nat
  | 0 => 0
  | count + 1 =>
    let low := if h : position < data.size then data[position].toNat else 0
    low + 256 * bytesFrom data (position + 1) count

namespace Backward

/-- Data to be read from their end. -/
def start? (data : ByteArray) : Option Backward :=
  if h : 0 < data.size then
    let last := data[data.size - 1].toNat
    if last = 0 then none else some ⟨data, 8 * (data.size - 1) + last.log2⟩
  else none

/-- The next bits, as many as at most 32, with zeros after the last one. -/
def peek (b : Backward) (count : Nat) : Nat :=
  let used := min count b.left
  let position := b.left - used
  let value := bytesFrom b.data (position / 8) 5 >>> (position % 8)
  (value % 2 ^ used) <<< (count - used)

/-- Moves on by some bits, if so many are left. -/
def drop? (b : Backward) (count : Nat) : Option Backward :=
  if b.left < count then none else some { b with left := b.left - count }

/-- Reads some bits, if so many are left. -/
def take? (b : Backward) (count : Nat) : Option (Nat × Backward) :=
  (b.drop? count).map fun rest => (b.peek count, rest)

end Backward

end ReviewMentor.Zip.Zstandard

/-!
# Digests

The digest with 64 bits of the content of a frame, of which the lower half is written.
-/

namespace ReviewMentor.Zip.Zstandard

/-- The factors of the digest. -/
def prime1 : UInt64 := 0x9E3779B185EBCA87

/-- The second factor. -/
def prime2 : UInt64 := 0xC2B2AE3D27D4EB4F

/-- The third factor. -/
def prime3 : UInt64 := 0x165667B19E3779F9

/-- The fourth factor. -/
def prime4 : UInt64 := 0x85EBCA77C2B2AE63

/-- The fifth factor. -/
def prime5 : UInt64 := 0x27D4EB2F165667C5

/-- Turns bits to the left. -/
def rotate (n bits : UInt64) : UInt64 := (n <<< bits) ||| (n >>> (64 - bits))

/-- Adds a word to a lane. -/
def mix (lane word : UInt64) : UInt64 := rotate (lane + word * prime2) 31 * prime1

/-- The word of some bytes from a position on, the lowest one first. -/
def word (data : ByteArray) (position : Nat) : Nat → UInt64
  | 0 => 0
  | count + 1 =>
    (data.get! position).toUInt64 ||| (word data (position + 1) count <<< 8)

/-- Four lanes that take words in turn. -/
structure Lanes where
  first : UInt64
  second : UInt64
  third : UInt64
  fourth : UInt64

/-- Adds stripes of four words from a position on. -/
def Lanes.add (data : ByteArray) : Nat → Nat → Lanes → Lanes
  | 0, _, l => l
  | count + 1, position, l =>
    add data count (position + 32)
      { first := mix l.first (word data position 8)
        second := mix l.second (word data (position + 8) 8)
        third := mix l.third (word data (position + 16) 8)
        fourth := mix l.fourth (word data (position + 24) 8) }

/-- Joins the lanes. -/
def Lanes.join (l : Lanes) : UInt64 :=
  let sum := rotate l.first 1 + rotate l.second 7 + rotate l.third 12 + rotate l.fourth 18
  [l.first, l.second, l.third, l.fourth].foldl
    (fun n lane => (n ^^^ mix 0 lane) * prime1 + prime4) sum

/-- Adds the bytes after the last stripe, in words as long as possible. -/
def addRest (data : ByteArray) : Nat → Nat → UInt64 → UInt64
  | 0, _, n => n
  | fuel + 1, position, n =>
    if position + 8 ≤ data.size then
      addRest data fuel (position + 8)
        (rotate (n ^^^ mix 0 (word data position 8)) 27 * prime1 + prime4)
    else if position + 4 ≤ data.size then
      addRest data fuel (position + 4)
        (rotate (n ^^^ (word data position 4 * prime1)) 23 * prime2 + prime3)
    else if position < data.size then
      addRest data fuel (position + 1)
        (rotate (n ^^^ ((data.get! position).toUInt64 * prime5)) 11 * prime1)
    else n

/-- Spreads every bit over all bits. -/
def spread (n : UInt64) : UInt64 :=
  let n := (n ^^^ (n >>> 33)) * prime2
  let n := (n ^^^ (n >>> 29)) * prime3
  n ^^^ (n >>> 32)

/-- The digest of bytes. -/
def digest (data : ByteArray) : UInt64 :=
  let stripes := data.size / 32
  let start :=
    if stripes = 0 then prime5
    else (Lanes.add data stripes 0 ⟨prime1 + prime2, prime2, 0, 0 - prime1⟩).join
  spread (addRest data (data.size + 1) (32 * stripes) (start + data.size.toUInt64))

end ReviewMentor.Zip.Zstandard

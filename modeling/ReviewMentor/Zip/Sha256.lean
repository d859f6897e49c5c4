import ReviewMentor.Powers

/-!
# Hashes

The hash with 256 bits that may guard the content of a block.
-/

namespace ReviewMentor.Zip.Sha256

/-- The words that are added in each round. -/
def roundWords : Array UInt32 :=
  #[0x428a2f98, 0x71374491, 0xb5c0fbcf, 0xe9b5dba5, 0x3956c25b, 0x59f111f1, 0x923f82a4, 0xab1c5ed5,
    0xd807aa98, 0x12835b01, 0x243185be, 0x550c7dc3, 0x72be5d74, 0x80deb1fe, 0x9bdc06a7, 0xc19bf174,
    0xe49b69c1, 0xefbe4786, 0x0fc19dc6, 0x240ca1cc, 0x2de92c6f, 0x4a7484aa, 0x5cb0a9dc, 0x76f988da,
    0x983e5152, 0xa831c66d, 0xb00327c8, 0xbf597fc7, 0xc6e00bf3, 0xd5a79147, 0x06ca6351, 0x14292967,
    0x27b70a85, 0x2e1b2138, 0x4d2c6dfc, 0x53380d13, 0x650a7354, 0x766a0abb, 0x81c2c92e, 0x92722c85,
    0xa2bfe8a1, 0xa81a664b, 0xc24b8b70, 0xc76c51a3, 0xd192e819, 0xd6990624, 0xf40e3585, 0x106aa070,
    0x19a4c116, 0x1e376c08, 0x2748774c, 0x34b0bcb5, 0x391c0cb3, 0x4ed8aa4a, 0x5b9cca4f, 0x682e6ff3,
    0x748f82ee, 0x78a5636f, 0x84c87814, 0x8cc70208, 0x90befffa, 0xa4506ceb, 0xbef9a3f7, 0xc67178f2]

/-- The words that a hash starts with. -/
def startWords : Array UInt32 :=
  #[0x6a09e667, 0xbb67ae85, 0x3c6ef372, 0xa54ff53a, 0x510e527f, 0x9b05688c, 0x1f83d9ab, 0x5be0cd19]

/-- Turns bits to the right. -/
def rotate (n bits : UInt32) : UInt32 := (n >>> bits) ||| (n <<< (32 - bits))

/-- The word of four bytes at a position, the highest one first. -/
def wordAt (data : ByteArray) (position : Nat) : UInt32 :=
  (List.range 4).foldl (fun n k => (n <<< 8) ||| (data.get! (position + k)).toUInt32) 0

/-- The words of a chunk of 64 bytes, and those that follow from them. -/
def schedule (data : ByteArray) (position : Nat) : Array UInt32 :=
  let first := ((List.range 16).map fun k => wordAt data (position + 4 * k)).toArray
  (List.range 48).foldl (fun words k =>
    let a := words.getD (k + 1) 0
    let b := words.getD (k + 14) 0
    let low := rotate a 7 ^^^ rotate a 18 ^^^ (a >>> 3)
    let high := rotate b 17 ^^^ rotate b 19 ^^^ (b >>> 10)
    words.push (words.getD k 0 + low + words.getD (k + 9) 0 + high)) first

/-- One round. -/
def round (state : Array UInt32) (word : UInt32) : Array UInt32 :=
  let part := fun k => state.getD k 0
  let (a, b, c, e, f, g) := (part 0, part 1, part 2, part 4, part 5, part 6)
  let turned := rotate e 6 ^^^ rotate e 11 ^^^ rotate e 25
  let choice := (e &&& f) ^^^ ((e ^^^ 0xFFFFFFFF) &&& g)
  let added := part 7 + turned + choice + word
  let spread := rotate a 2 ^^^ rotate a 13 ^^^ rotate a 22
  let most := (a &&& b) ^^^ (a &&& c) ^^^ (b &&& c)
  #[added + spread + most, a, b, c, part 3 + added, e, f, g]

/-- Adds a chunk of 64 bytes. -/
def addChunk (data : ByteArray) (hash : Array UInt32) (position : Nat) : Array UInt32 :=
  let words := (schedule data position).zipWith (· + ·) roundWords
  hash.zipWith (· + ·) (words.foldl round hash)

/-- Data with what is put behind them: a mark, zeros, and their length in bits. -/
def padded (data : ByteArray) : ByteArray :=
  let zeros := (119 - data.size % 64) % 64
  let length := (List.range 8).reverse.map fun k => UInt8.ofNat (8 * data.size / 256 ^ k)
  data ++ ⟨([0x80] ++ List.replicate zeros 0 ++ length).toArray⟩

/-- The hash of bytes. -/
def hash (data : ByteArray) : ByteArray :=
  let data := padded data
  let words := (List.range (data.size / 64)).foldl (fun h k => addChunk data h (64 * k)) startWords
  ⟨words.flatMap fun (w : UInt32) =>
    #[(w >>> 24).toUInt8, (w >>> 16).toUInt8, (w >>> 8).toUInt8, w.toUInt8]⟩

end ReviewMentor.Zip.Sha256

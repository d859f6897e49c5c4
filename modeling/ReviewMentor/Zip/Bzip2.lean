import ReviewMentor.Zip.Checksum
import ReviewMentor.Zip.Code

/-!
# Sorted blocks

Reading data packed in blocks whose bytes were sorted by what follows them. A block is coded as
ranks in a list of bytes that moves each byte to its front when it is used, with runs of the front
byte counted, and the ranks are coded with several prefix codes in turn. Under the sorting lies
another way to count runs: after four equal bytes stands how many more follow.
-/

namespace ReviewMentor.Zip.Bzip2

/-- The longest word of a code. -/
def longestWord : Nat := 20

/-- After this many symbols the code changes. -/
def groupSize : Nat := 50

/-- How many changes of code are kept in mind. -/
def mostSelectors : Nat := 18002

/-- Runs are counted with places below this value. -/
def placeBound : Nat := 2 * 1024 * 1024

/-- Reads the bytes that must come next. -/
def expect : List Nat → Unpacking Unit
  | [] => pure ()
  | b :: rest => do
    Unpacking.require ((← Unpacking.highBits 8) = b)
    expect rest

/-- Reads flags; the numbers of those that are set, from `first` on. -/
def flagged (first : Nat) : Nat → Unpacking (List Nat)
  | 0 => pure []
  | count + 1 => do
    let flag ← Unpacking.highBit
    let rest ← flagged (first + 1) count
    pure (if flag = 1 then first :: rest else rest)

/-- Reads which bytes occur in a block. -/
def readAlphabet : Unpacking (List UInt8) := do
  let groups ← flagged 0 16
  let bytes ← groups.mapM fun g => flagged (16 * g) 16
  pure (bytes.flatten.map UInt8.ofNat)

/-- Reads a rank below a bound, counted in ones before a zero. -/
def readRank : Nat → Nat → Unpacking Nat
  | _, 0 => Unpacking.corrupt
  | rank, bound + 1 => do
    if (← Unpacking.highBit) = 0 then pure rank else readRank (rank + 1) bound

/-- Takes what has a rank in a list to its front. -/
def toFront? {α : Type} (rank : Nat) (ranked : List α) : Option (α × List α) :=
  ranked[rank]?.map fun a => (a, a :: ranked.eraseIdx rank)

/-- Reads which code is used for each group of symbols. -/
def readSelectors (codes : Nat) : Nat → List Nat → Unpacking (List Nat)
  | 0, _ => pure []
  | count + 1, ranked => do
    let (code, ranked) ← Unpacking.known (toFront? (← readRank 0 codes) ranked)
    let rest ← readSelectors codes count ranked
    pure (code :: rest)

/-- Reads the length of a word, as steps from the one before. -/
def readLength : Nat → Nat → Unpacking Nat
  | 0, _ => throw .unfinished
  | fuel + 1, length => do
    Unpacking.require (1 ≤ length && length ≤ longestWord)
    if (← Unpacking.highBit) = 0 then pure length
    else if (← Unpacking.highBit) = 0 then readLength fuel (length + 1)
    else readLength fuel (length - 1)

/-- Reads the lengths of the words of a code. -/
def readLengths (fuel : Nat) : Nat → Nat → Unpacking (List Nat)
  | 0, _ => pure []
  | count + 1, before => do
    let length ← readLength fuel before
    let rest ← readLengths fuel count length
    pure (length :: rest)

/-- What the symbols of a block are coded with. -/
structure Coding where
  codes : Array Code
  selectors : Array Nat

/-- Reads what the symbols of a block are coded with. A word that is not used shows when it is
longer than any word may be. -/
def readCoding (symbols : Nat) : Unpacking Coding := do
  let codes ← Unpacking.highBits 3
  Unpacking.require (2 ≤ codes && codes ≤ 6)
  let count ← Unpacking.highBits 15
  Unpacking.require (1 ≤ count)
  let selectors ← readSelectors codes count (List.range codes)
  let fuel := 8 * (← get).packed.size + 1
  let lengths ← (List.range codes).mapM fun _ => do
    readLengths fuel symbols (← Unpacking.highBits 5)
  pure ⟨(lengths.map (Code.ofLengths (longestWord + 1))).toArray,
    (selectors.take mostSelectors).toArray⟩

/-- Reads a symbol, given how many came before it. -/
def Coding.read (c : Coding) (before : Nat) : Unpacking Nat := do
  let code ← Unpacking.known (c.selectors[before / groupSize]?.bind (c.codes[·]?))
  Unpacking.known (← code.read? Unpacking.highBit)

/-- The bytes of a block as far as they were read, and the run that is being counted. -/
structure Sorted where
  bytes : ByteArray
  /-- The bytes of the alphabet, the last one used at the front. -/
  ranked : List UInt8
  run : Nat
  /-- The value of the next place of the count. -/
  place : Nat

/-- Ends the run that is being counted. -/
def Sorted.endRun (s : Sorted) (limit : Nat) : Unpacking Sorted := do
  Unpacking.require (s.bytes.size + s.run ≤ limit)
  let more := List.replicate s.run (s.ranked.headD 0)
  pure { s with bytes := more.foldl ByteArray.push s.bytes, run := 0, place := 1 }

/-- Reads the symbols of a block of at most `limit` bytes. -/
def readSorted (c : Coding) (limit finish : Nat) : Nat → Nat → Sorted → Unpacking ByteArray
  | 0, _, _ => throw .unfinished
  | fuel + 1, before, s => do
    let symbol ← c.read before
    if symbol < 2 then
      Unpacking.require (s.place < placeBound)
      readSorted c limit finish fuel (before + 1)
        { s with run := s.run + (symbol + 1) * s.place, place := 2 * s.place }
    else
      let s ← s.endRun limit
      if symbol = finish then pure s.bytes
      else
        Unpacking.require (s.bytes.size < limit)
        let (b, ranked) ← Unpacking.known (toFront? (symbol - 1) s.ranked)
        readSorted c limit finish fuel (before + 1)
          { s with bytes := s.bytes.push b, ranked }

/-- For each byte, how many of the given bytes are less. -/
def placesOf (bytes : ByteArray) : Array Nat :=
  let counts := bytes.foldl (fun counts b => counts.modify b.toNat (· + 1)) (Array.replicate 256 0)
  (counts.foldl (fun (places, total) count => (places.push total, total + count)) (#[], 0)).1

/-- For each byte, the position of the byte after it in the order before sorting. -/
def links (bytes : ByteArray) : Array Nat :=
  (bytes.foldl (fun (links, places, position) b =>
      let place := places.getD b.toNat 0
      (links.setIfInBounds place position, places.modify b.toNat (· + 1), position + 1))
    (Array.replicate bytes.size 0, placesOf bytes, 0)).1

/-- Follows links, and collects bytes. -/
def follow (bytes : ByteArray) (links : Array Nat) : Nat → Nat → ByteArray → ByteArray
  | 0, _, out => out
  | count + 1, position, out =>
    follow bytes links count (links.getD position 0) (out.push (bytes.get! position))

/-- Undoes the sorting of bytes, the first of which is linked from `origin`. -/
def unsort (bytes : ByteArray) (origin : Nat) : ByteArray :=
  let links := links bytes
  follow bytes links bytes.size (links.getD origin 0) .empty

/-- Distances between the bytes of a block whose lowest bit is turned. -/
def turns : Array Nat :=
  #[619, 720, 127, 481, 931, 816, 813, 233, 566, 247, 985, 724, 205, 454, 863, 491, 741, 242, 949,
    214, 733, 859, 335, 708, 621, 574, 73, 654, 730, 472, 419, 436, 278, 496, 867, 210, 399, 680,
    480, 51, 878, 465, 811, 169, 869, 675, 611, 697, 867, 561, 862, 687, 507, 283, 482, 129, 807,
    591, 733, 623, 150, 238, 59, 379, 684, 877, 625, 169, 643, 105, 170, 607, 520, 932, 727, 476,
    693, 425, 174, 647, 73, 122, 335, 530, 442, 853, 695, 249, 445, 515, 909, 545, 703, 919, 874,
    474, 882, 500, 594, 612, 641, 801, 220, 162, 819, 984, 589, 513, 495, 799, 161, 604, 958, 533,
    221, 400, 386, 867, 600, 782, 382, 596, 414, 171, 516, 375, 682, 485, 911, 276, 98, 553, 163,
    354, 666, 933, 424, 341, 533, 870, 227, 730, 475, 186, 263, 647, 537, 686, 600, 224, 469, 68,
    770, 919, 190, 373, 294, 822, 808, 206, 184, 943, 795, 384, 383, 461, 404, 758, 839, 887, 715,
    67, 618, 276, 204, 918, 873, 777, 604, 560, 951, 160, 578, 722, 79, 804, 96, 409, 713, 940, 652,
    934, 970, 447, 318, 353, 859, 672, 112, 785, 645, 863, 803, 350, 139, 93, 354, 99, 820, 908,
    609, 772, 154, 274, 580, 184, 79, 626, 630, 742, 653, 282, 762, 623, 680, 81, 927, 626, 789,
    125, 411, 521, 938, 300, 821, 78, 343, 175, 128, 250, 170, 774, 972, 275, 999, 639, 495, 78,
    352, 126, 857, 956, 358, 619, 580, 124, 737, 594, 701, 612, 669, 112, 134, 694, 363, 992, 809,
    743, 168, 974, 944, 375, 748, 52, 600, 747, 642, 182, 862, 81, 344, 805, 988, 739, 511, 655,
    814, 334, 249, 515, 897, 955, 664, 981, 649, 113, 974, 459, 893, 228, 433, 837, 553, 268, 926,
    240, 102, 654, 459, 51, 686, 754, 806, 760, 493, 403, 415, 394, 687, 700, 946, 670, 656, 610,
    738, 392, 760, 799, 887, 653, 978, 321, 576, 617, 626, 502, 894, 679, 243, 440, 680, 879, 194,
    572, 640, 724, 926, 56, 204, 700, 707, 151, 457, 449, 797, 195, 791, 558, 945, 679, 297, 59, 87,
    824, 713, 663, 412, 693, 342, 606, 134, 108, 571, 364, 631, 212, 174, 643, 304, 329, 343, 97,
    430, 751, 497, 314, 983, 374, 822, 928, 140, 206, 73, 263, 980, 736, 876, 478, 430, 305, 170,
    514, 364, 692, 829, 82, 855, 953, 676, 246, 369, 970, 294, 750, 807, 827, 150, 790, 288, 923,
    804, 378, 215, 828, 592, 281, 565, 555, 710, 82, 896, 831, 547, 261, 524, 462, 293, 465, 502,
    56, 661, 821, 976, 991, 658, 869, 905, 758, 745, 193, 768, 550, 608, 933, 378, 286, 215, 979,
    792, 961, 61, 688, 793, 644, 986, 403, 106, 366, 905, 644, 372, 567, 466, 434, 645, 210, 389,
    550, 919, 135, 780, 773, 635, 389, 707, 100, 626, 958, 165, 504, 920, 176, 193, 713, 857, 265,
    203, 50, 668, 108, 645, 990, 626, 197, 510, 357, 358, 850, 858, 364, 936, 638]

/-- Turns the lowest bit of some bytes of a block. -/
def turnBits (bytes : ByteArray) : ByteArray :=
  (bytes.foldl (fun (out, index, left) b =>
      let (index, left) :=
        if left = 0 then ((index + 1) % turns.size, turns.getD index 0) else (index, left)
      (out.push (if left = 2 then b ^^^ 1 else b), index, left - 1))
    (ByteArray.empty, 0, 0)).1

/-- Output while runs are expanded: the last byte, and how often it came in a row. -/
structure Expansion where
  stream : Stream
  last : UInt8
  row : Nat

/-- The length of the row after which stands how many more equal bytes follow. -/
def fullRow : Nat := 4

/-- Puts a byte out, or as many bytes as it says after a full row. -/
def Expansion.add (e : Expansion) (b : UInt8) : Expansion :=
  if e.row = fullRow then
    let more := List.replicate b.toNat e.last
    { e with stream := more.foldl (·.put Stream.fillsPortion ·) e.stream, row := 0 }
  else
    { stream := e.stream.put Stream.fillsPortion b, last := b
      row := if 0 < e.row && e.last = b then e.row + 1 else 1 }

/-- Puts bytes out, with their runs expanded. -/
def expand (bytes : ByteArray) : Unpacking Unit := Unpacking.of fun s =>
  let e := bytes.foldl Expansion.add ⟨s, 0, 0⟩
  (if e.row = fullRow then .error .corrupt else .ok (), e.stream)

/-- Reads a block of at most `limit` bytes; its checksum. -/
def readBlock (limit : Nat) : Unpacking UInt32 := do
  let check ← Unpacking.highBits 32
  let isTurned ← Unpacking.highBit
  let origin ← Unpacking.highBits 24
  Unpacking.require (origin ≤ limit + 10)
  let alphabet ← readAlphabet
  Unpacking.require (0 < alphabet.length)
  let coding ← readCoding (alphabet.length + 2)
  let fuel := 8 * (← get).packed.size + 1
  let sorted ← readSorted coding limit (alphabet.length + 1) fuel 0 ⟨.empty, alphabet, 0, 1⟩
  Unpacking.require (origin < sorted.size)
  let bytes := unsort sorted origin
  let start := (← get).output.size
  expand (if isTurned = 1 then turnBits bytes else bytes)
  let s ← get
  let found := highChecksum (s.output.extract start s.output.size)
  Unpacking.require (found.toNat = check)
  pure found

/-- Reads blocks, and the checksum over their checksums. -/
def blocks (limit : Nat) : Nat → UInt32 → Unpacking Unit
  | 0, _ => throw .unfinished
  | fuel + 1, found => do
    let first ← Unpacking.highBits 8
    if first = 0x31 then
      expect [0x41, 0x59, 0x26, 0x53, 0x59]
      let next ← readBlock limit
      blocks limit fuel (((found <<< 1) ||| (found >>> 31)) ^^^ next)
    else
      Unpacking.require (first = 0x17)
      expect [0x72, 0x45, 0x38, 0x50, 0x90]
      let check ← Unpacking.highBits 32
      Unpacking.require (found.toNat = check)

/-- Reads data from their start. The size of the blocks is given in hundreds of thousands. -/
def stream : Unpacking Unit := do
  expect [0x42, 0x5A, 0x68]
  let level ← Unpacking.highBits 8
  Unpacking.require (0x31 ≤ level && level ≤ 0x39)
  blocks (100000 * (level - 0x30)) (8 * (← get).packed.size + 1) 0

/-- What packed data stand for. Nothing after their end is looked at. -/
def unpack (packed : ByteArray) : Unpacked := Unpacking.run false stream packed

end ReviewMentor.Zip.Bzip2

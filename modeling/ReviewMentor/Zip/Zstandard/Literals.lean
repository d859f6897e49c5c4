import ReviewMentor.Zip.Zstandard.States

/-!
# Literals

The bytes of a block that repeat nothing. They stand as they are, or as one byte and how often it
comes, or coded with a prefix code that the block describes or takes over from the block before.
-/

namespace ReviewMentor.Zip.Zstandard

/-- A prefix code: the symbol and the length of the word that starts each number of so many bits. -/
structure WordTable where
  log : Nat
  words : Array (UInt8 × Nat)

/-- The longest word. -/
def longestWord : Nat := 12

/-- Reads weights that are coded as states of two chains in turn. When the bits of one chain run
out, the state of the other one is the last. -/
def readChains (t : StateTable) : Nat → Cell → Cell → Backward → List Nat → Option (List Nat)
  | 0, _, _, _, _ => none
  | fuel + 1, cell, other, b, found =>
    let found := cell.symbol :: found
    match t.next? cell b with
    | none => some (other.symbol :: found).reverse
    | some (cell, b) => readChains t fuel other cell b found

/-- How many weights are read at most; the last one is never written. -/
def mostWeights : Nat := 255

/-- Reads the weights of symbols; the weights, and how many bytes were read. -/
def readWeights? (data : ByteArray) : Option (List Nat × Nat) := do
  let size := (← data[0]?).toNat
  if 128 ≤ size then
    let count := size - 127
    let bytes := (count + 1) / 2
    if data.size < bytes + 1 || mostWeights < count then none
    else
      let pairs := (data.extract 1 (1 + bytes)).toList.flatMap fun b =>
        [b.toNat / 16, b.toNat % 16]
      some (pairs.take count, bytes + 1)
  else if data.size < size + 1 then none
  else
    let content := data.extract 1 (1 + size)
    let (table, used) ← StateTable.read? 256 6 content
    let b ← Backward.start? (content.extract used content.size)
    let (first, b) ← table.start? b
    let (second, b) ← table.start? b
    let weights ← readChains table (mostWeights - 1) first second b []
    pure (weights, size + 1)

/-- The share of all numbers that start with the word of a symbol. -/
def share (weight : Nat) : Nat := if weight = 0 then 0 else 2 ^ (weight - 1)

/-- The weight of the last symbol, and the length of the longest word: shares add up to a power of
two. -/
def lastWeight? (weights : List Nat) : Option (Nat × Nat) :=
  let total := weights.foldl (fun n w => n + share w) 0
  if total = 0 || weights.any (longestWord < ·) then none
  else
    let log := total.log2 + 1
    let rest := 2 ^ log - total
    if longestWord < log || 2 ^ rest.log2 ≠ rest then none else some (rest.log2 + 1, log)

namespace WordTable

/-- The prefix code with the given weights but the last one. Words of the greatest length come in
pairs. -/
def ofWeights? (weights : List Nat) : Option WordTable := do
  let (last, log) ← lastWeight? weights
  let weights := weights ++ [last]
  let longest := weights.count 1
  if longest < 2 || longest % 2 = 1 then none
  let indexed := weights.zipIdx
  let words := (List.range log).foldl (fun (words : Array (UInt8 × Nat)) n =>
    indexed.foldl (fun words (weight, symbol) =>
      if weight = n + 1 then
        words ++ Array.replicate (share weight) (UInt8.ofNat symbol, log - n)
      else words) words) #[]
  pure ⟨log, words⟩

/-- Reads a prefix code; the code, and how many bytes were read. -/
def read? (data : ByteArray) : Option (WordTable × Nat) := do
  let (weights, used) ← readWeights? data
  pure (← ofWeights? weights, used)

/-- Decodes some symbols, which leave no bit. -/
def decodeFrom? (t : WordTable) : Nat → Backward → ByteArray → Option ByteArray
  | 0, b, out => if b.left = 0 then some out else none
  | count + 1, b, out => do
    let (symbol, length) ← t.words[b.peek t.log]?
    decodeFrom? t count (← b.drop? length) (out.push symbol)

/-- Adds some symbols that data stand for. -/
def decode? (t : WordTable) (count : Nat) (data : ByteArray) (out : ByteArray) :
    Option ByteArray := do
  t.decodeFrom? count (← Backward.start? data) out

/-- How many literals there are at least if they are divided. -/
def fewestDivided : Nat := 6

/-- Decodes symbols that are divided into four parts. -/
def decodeParts? (t : WordTable) (count : Nat) (data : ByteArray) : Option ByteArray := do
  let first := bytesFrom data 0 2
  let second := bytesFrom data 2 2
  let third := bytesFrom data 4 2
  let part := (count + 3) / 4
  let starts := [6, 6 + first, 6 + first + second, 6 + first + second + third]
  if data.size < 10 || count < 3 * part then none
  let ends := starts.drop 1 ++ [data.size]
  if data.size < starts.getLastD 0 then none
  let counts := [part, part, part, count - 3 * part]
  ((starts.zip ends).zip counts).foldlM (fun out ((start, stop), count) =>
    t.decode? count (data.extract start stop) out) .empty

end WordTable

/-- The literals of a block: their bytes, how many bytes were read, and the code that the next
block may take over. -/
structure Literals where
  bytes : ByteArray
  used : Nat
  code? : Option WordTable

/-- The size of plain or repeated literals, and the length of the header that says it. -/
def plainSize (data : ByteArray) (format : Nat) : Nat × Nat :=
  match format with
  | 1 => (bytesFrom data 0 2 / 16, 2)
  | 3 => (bytesFrom data 0 3 / 16, 3)
  | _ => (bytesFrom data 0 1 / 8, 1)

/-- The size of coded literals, their size as they are coded, and the length of the header. -/
def codedSize (data : ByteArray) (format : Nat) : Nat × Nat × Nat :=
  let (bits, header) := match format with
    | 2 => (14, 4)
    | 3 => (18, 5)
    | _ => (10, 3)
  let value := bytesFrom data 0 header / 16
  (value % 2 ^ bits, value / 2 ^ bits, header)

/-- Reads coded literals. -/
def readCoded? (before? : Option WordTable) (isNew : Bool) (format limit : Nat)
    (data : ByteArray) : Option Literals := do
  if data.size < 5 then none
  let (size, coded, header) := codedSize data format
  let isDivided := format ≠ 0
  if limit < size || data.size < coded + header then none
  if isDivided && size < WordTable.fewestDivided then none
  let content := data.extract header (header + coded)
  let (code, used) ←
    if isNew then WordTable.read? content else before?.map fun code => (code, 0)
  let words := content.extract used content.size
  let bytes ← if isDivided then code.decodeParts? size words else code.decode? size words .empty
  pure ⟨bytes, header + coded, some code⟩

/-- Reads the literals at the start of a block. There are at most `limit` of them. -/
def readLiterals? (before? : Option WordTable) (limit : Nat) (data : ByteArray) :
    Option Literals := do
  if data.size < 2 then none
  let head := (← data[0]?).toNat
  let format := head / 4 % 4
  match head % 4 with
  | 0 =>
    let (size, header) := plainSize data format
    if limit < size || data.size < header + size then none
    else some ⟨data.extract header (header + size), header + size, before?⟩
  | 1 =>
    let (size, header) := plainSize data format
    if limit < size then none
    let b ← data[header]?
    pure ⟨⟨Array.replicate size b⟩, header + 1, before?⟩
  | 2 => readCoded? before? true format limit data
  | _ => readCoded? before? false format limit data

end ReviewMentor.Zip.Zstandard

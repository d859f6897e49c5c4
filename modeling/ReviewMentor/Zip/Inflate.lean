import ReviewMentor.Zip.Code

/-!
# Inflating

Reading deflated data: blocks that are stored or coded with prefix codes, which are either fixed or
described at the start of the block. There are two dialects, which differ in how far back and how
long a repetition may be, and in how careful they are about codes.
-/

namespace ReviewMentor.Zip

/-- Which codes may leave words unused. -/
inductive Gaps where
  /-- None. -/
  | never
  /-- Those without a word, or with a single word of one bit. -/
  | single
  /-- All. A word that is not used stands for the first symbol, and is as long as its word. -/
  | always
deriving DecidableEq

/-- A code of deflated data. -/
structure SymbolCode where
  code : Code
  /-- The length of a word that is not used. There is none if such a word is an error. -/
  unused? : Option Nat

namespace SymbolCode

/-- The code with words of the given lengths. -/
def ofLengths? (gaps : Gaps) (lengths : List Nat) : Option SymbolCode := do
  let code := Code.ofLengths (lengths.foldl max 1) lengths
  let room ← code.room?
  match gaps, room with
  | _, 0 => some ⟨code, none⟩
  | .never, _ => none
  | .single, _ => if code.counts.length = 1 then some ⟨code, none⟩ else none
  | .always, _ => some ⟨code, lengths.head?.filter (0 < ·)⟩

/-- Reads a word. -/
def read (c : SymbolCode) : Unpacking Nat := do
  let start := (← get).position
  match ← c.code.read? Unpacking.bit, c.unused? with
  | some symbol, _ => pure symbol
  | none, none => Unpacking.corrupt
  | none, some length =>
    modify fun s => { s with position := start }
    let _ ← Unpacking.bits length
    pure 0

end SymbolCode

/-- A dialect of deflated data. -/
structure Deflation where
  /-- The least length that each length symbol stands for, and its extra bits. -/
  lengths : Array (Nat × Nat)
  /-- The least distance that each distance symbol stands for, and its extra bits. -/
  distances : Array (Nat × Nat)
  /-- How many literal symbols and distance symbols a block may describe. -/
  mostLiterals : Nat
  mostDistances : Nat
  /-- Whether a block has to describe a word for its end. -/
  needsEnd : Bool
  /-- Which codes of a block may leave words unused: the code for lengths, and the others. -/
  lengthGaps : Gaps
  symbolGaps : Gaps
  /-- Whether output leaves before another byte. -/
  isFull : Stream → Bool
  /-- What leaves after a block. -/
  endBlock : Stream → Stream

/-- Lengths up to the one that is written differently in the two dialects. -/
def commonLengths : Array (Nat × Nat) :=
  #[(3, 0), (4, 0), (5, 0), (6, 0), (7, 0), (8, 0), (9, 0), (10, 0), (11, 1), (13, 1), (15, 1),
    (17, 1), (19, 2), (23, 2), (27, 2), (31, 2), (35, 3), (43, 3), (51, 3), (59, 3), (67, 4),
    (83, 4), (99, 4), (115, 4), (131, 5), (163, 5), (195, 5), (227, 5)]

/-- Distances that both dialects know. -/
def commonDistances : Array (Nat × Nat) :=
  #[(1, 0), (2, 0), (3, 0), (4, 0), (5, 1), (7, 1), (9, 2), (13, 2), (17, 3), (25, 3), (33, 4),
    (49, 4), (65, 5), (97, 5), (129, 6), (193, 6), (257, 7), (385, 7), (513, 8), (769, 8),
    (1025, 9), (1537, 9), (2049, 10), (3073, 10), (4097, 11), (6145, 11), (8193, 12), (12289, 12),
    (16385, 13), (24577, 13)]

namespace Deflation

/-- The window in which the common dialect collects its output. -/
def window : Nat := 32768

/-- The common dialect. Its output leaves whenever the window is full. -/
def short : Deflation where
  lengths := commonLengths.push (258, 0)
  distances := commonDistances
  mostLiterals := 286
  mostDistances := 30
  needsEnd := false
  lengthGaps := .never
  symbolGaps := .single
  isFull s := s.output.size % window = 0
  endBlock := id

/-- The dialect with longer repetitions from further back. Its output leaves after each block, in
full portions. -/
def long : Deflation where
  lengths := commonLengths.push (3, 16)
  distances := commonDistances ++ #[(32769, 14), (49153, 14)]
  mostLiterals := 288
  mostDistances := 32
  needsEnd := true
  lengthGaps := .always
  symbolGaps := .always
  isFull _ := false
  endBlock s :=
    { s with delivered := s.delivered + (s.output.size - s.delivered) / portion * portion }

/-- The codes of a block. -/
structure Codes where
  literals : SymbolCode
  distances : SymbolCode

/-- The value of a symbol with extra bits. -/
def extended (table : Array (Nat × Nat)) (symbol : Nat) : Unpacking Nat := do
  let (least, count) ← Unpacking.known table[symbol]?
  let extra ← Unpacking.bits count
  pure (least + extra)

/-- The symbol that ends a block. -/
def endSymbol : Nat := 256

/-- Reads the symbols of a block, and puts out what they stand for. -/
def symbols (d : Deflation) (codes : Codes) : Nat → Unpacking Unit
  | 0 => throw .unfinished
  | fuel + 1 => do
    let symbol ← codes.literals.read
    if symbol < endSymbol then
      modify (·.put d.isFull (UInt8.ofNat symbol))
      symbols d codes fuel
    else if symbol = endSymbol then pure ()
    else
      let length ← extended d.lengths (symbol - endSymbol - 1)
      let distance ← extended d.distances (← codes.distances.read)
      modify (·.repeatBack d.isFull distance length)
      symbols d codes fuel

/-- The fixed codes. -/
def fixedCodes? : Option Codes := do
  let literals ← SymbolCode.ofLengths? .never
    (List.replicate 144 8 ++ List.replicate 112 9 ++ List.replicate 24 7 ++ List.replicate 8 8)
  let distances ← SymbolCode.ofLengths? .never (List.replicate 32 5)
  pure ⟨literals, distances⟩

/-- The order in which the lengths of the code for lengths are written. -/
def lengthOrder : List Nat :=
  [16, 17, 18, 0, 8, 7, 9, 6, 10, 5, 11, 4, 12, 3, 13, 2, 14, 1, 15]

/-- Reads some lengths of code words, the last one first; some symbols repeat a length. -/
def readLengths (code : SymbolCode) (count : Nat) : Nat → List Nat → Unpacking (List Nat)
  | 0, _ => Unpacking.corrupt
  | fuel + 1, before =>
    if before.length = count then pure before
    else do
      let symbol ← code.read
      if symbol < 16 then readLengths code count fuel (symbol :: before)
      else
        let (value, least, extra) ← match symbol, before with
          | 16, [] => Unpacking.corrupt
          | 16, last :: _ => pure (last, 3, 2)
          | 17, _ => pure (0, 3, 3)
          | _, _ => pure (0, 11, 7)
        let times := least + (← Unpacking.bits extra)
        Unpacking.require (before.length + times ≤ count)
        readLengths code count fuel (List.replicate times value ++ before)

/-- Reads the codes at the start of a block. -/
def readCodes (d : Deflation) : Unpacking Codes := do
  let literals := (← Unpacking.bits 5) + 257
  let distances := (← Unpacking.bits 5) + 1
  let count := (← Unpacking.bits 4) + 4
  Unpacking.require (literals ≤ d.mostLiterals && distances ≤ d.mostDistances)
  let written ← (lengthOrder.take count).mapM fun n => do pure (n, ← Unpacking.bits 3)
  let code ← Unpacking.known (SymbolCode.ofLengths? d.lengthGaps
    ((List.range 19).map fun n => (written.lookup n).getD 0))
  let total := literals + distances
  let lengths := (← readLengths code total (total + 1) []).reverse
  Unpacking.require (!d.needsEnd || lengths[endSymbol]?.getD 0 ≠ 0)
  let first ← Unpacking.known (SymbolCode.ofLengths? d.symbolGaps (lengths.take literals))
  let second ← Unpacking.known (SymbolCode.ofLengths? d.symbolGaps (lengths.drop literals))
  pure ⟨first, second⟩

/-- Reads a stored block. -/
def stored (d : Deflation) : Unpacking Unit := do
  Unpacking.align
  let length ← Unpacking.word 2
  let check ← Unpacking.word 2
  Unpacking.require (length + check = 0xFFFF)
  Unpacking.copy d.isFull length

/-- Reads blocks up to the last one. -/
def blocks (d : Deflation) : Nat → Unpacking Unit
  | 0 => throw .unfinished
  | fuel + 1 => do
    let last ← Unpacking.bit
    let kind ← Unpacking.bits 2
    let room := 8 * (← get).packed.size + 1
    match kind with
    | 0 => d.stored
    | 1 => d.symbols (← Unpacking.known fixedCodes?) room
    | 2 => d.symbols (← d.readCodes) room
    | _ => Unpacking.corrupt
    modify d.endBlock
    if last = 1 then pure () else d.blocks fuel

end Deflation

/-- What deflated data stand for. The data may break off anywhere. -/
def inflate (d : Deflation) (packed : ByteArray) : Unpacked :=
  Unpacking.run true (d.blocks (8 * packed.size + 1)) packed

end ReviewMentor.Zip

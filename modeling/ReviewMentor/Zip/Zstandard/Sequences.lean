import ReviewMentor.Zip.Zstandard.Literals

/-!
# Sequences

What a block does with its literals: each sequence takes some of them, and then repeats bytes that
lie some distance back. Lengths and distances are coded as states with extra bits.
-/

namespace ReviewMentor.Zip.Zstandard

/-- The table of some symbols, each with the least value that it stands for, and its extra bits. -/
structure ValueTable where
  table : StateTable
  values : Array (Nat × Nat)

/-- A kind of value in a sequence. -/
structure ValueKind where
  values : Array (Nat × Nat)
  /-- The table has at most 2 ^ `mostLog` states. -/
  mostLog : Nat
  usual : StateTable

/-- How many literals a sequence takes. -/
def literalLengths : ValueKind where
  values := ((List.range 16).map (·, 0)).toArray ++
    #[(16, 1), (18, 1), (20, 1), (22, 1), (24, 2), (28, 2), (32, 3), (40, 3), (48, 4), (64, 6)] ++
    ((List.range 10).map fun n => (2 ^ (n + 7), n + 7)).toArray
  mostLog := 9
  usual := .ofFrequencies 6 (([4, 3] ++ List.replicate 11 2 ++ [1, 1, 1] ++ List.replicate 9 2 ++
    [3, 2, 1, 1, 1, 1, 1]).map .often ++ List.replicate 4 .seldom)

/-- How many bytes a sequence repeats. -/
def matchLengths : ValueKind where
  values := ((List.range 32).map (· + 3, 0)).toArray ++
    #[(35, 1), (37, 1), (39, 1), (41, 1), (43, 2), (47, 2), (51, 3), (59, 3), (67, 4), (83, 4),
      (99, 5)] ++ ((List.range 10).map fun n => (2 ^ (n + 7) + 3, n + 7)).toArray
  mostLog := 9
  usual := .ofFrequencies 6 (([1, 4, 3] ++ List.replicate 6 2 ++ List.replicate 37 1).map .often ++
    List.replicate 7 .seldom)

/-- Which distance a sequence repeats from. -/
def distances : ValueKind where
  values := ((List.range 32).map fun n => (2 ^ n, n)).toArray
  mostLog := 8
  usual := .ofFrequencies 5 ((List.replicate 6 1 ++ [2, 2, 2] ++ List.replicate 15 1).map .often ++
    List.replicate 5 .seldom)

/-- The tables of a block. -/
structure Tables where
  literals : StateTable
  distances : StateTable
  repeats : StateTable

/-- Reads a table, or takes the one from the block before; the table, and how many bytes were
read. -/
def ValueKind.table? (k : ValueKind) (format : Nat) (before? : Option StateTable)
    (data : ByteArray) : Option (StateTable × Nat) :=
  match format with
  | 0 => some (k.usual, 0)
  | 1 => do
    let symbol := (← data[0]?).toNat
    if symbol < k.values.size then some (.single symbol, 1) else none
  | 2 => StateTable.read? k.values.size k.mostLog data
  | _ => before?.map (·, 0)

/-- The count of sequences at the start of data, and how many bytes were read. -/
def sequenceCount? (data : ByteArray) : Option (Nat × Nat) := do
  let first := (← data[0]?).toNat
  if first < 128 then pure (first, 1)
  else
    let second := (← data[1]?).toNat
    if first < 255 then pure (256 * (first - 128) + second, 2)
    else
      let third := (← data[2]?).toNat
      pure (second + 256 * third + 0x7F00, 3)

/-- Reads the tables of a block; how many bytes were read. -/
def readTables? (before? : Option Tables) (data : ByteArray) : Option (Tables × Nat) := do
  let formats := (← data[0]?).toNat
  if formats % 4 ≠ 0 then none
  let rest := fun used => data.extract used data.size
  let (literals, used) ←
    literalLengths.table? (formats / 64) (before?.map Tables.literals) (rest 1)
  let used := 1 + used
  let (distances, more) ←
    distances.table? (formats / 16 % 4) (before?.map Tables.distances) (rest used)
  let used := used + more
  let (repeats, more) ←
    matchLengths.table? (formats / 4 % 4) (before?.map Tables.repeats) (rest used)
  pure (⟨literals, distances, repeats⟩, used + more)

/-- The value of a symbol with extra bits. -/
def ValueKind.value? (k : ValueKind) (cell : Cell) (b : Backward) : Option (Nat × Backward) := do
  let (least, bits) ← k.values[cell.symbol]?
  let (extra, b) ← b.take? bits
  pure (least + extra, b)

/-- The last three distances, the latest one first. -/
structure Recent where
  first : Nat
  second : Nat
  third : Nat

/-- The distance that a value stands for. The values up to 3 stand for recent distances, or for
those after them if a sequence takes no literals. A distance of zero makes no sense. -/
def Recent.distance? (r : Recent) (value : Nat) (takesNone : Bool) : Option (Nat × Recent) :=
  let found :=
    if 3 < value then (value - 3, ⟨value - 3, r.first, r.second⟩)
    else match (if takesNone then value + 1 else value) with
      | 1 => (r.first, r)
      | 2 => (r.second, ⟨r.second, r.first, r.third⟩)
      | 3 => (r.third, ⟨r.third, r.first, r.second⟩)
      | _ => (r.first - 1, ⟨r.first - 1, r.first, r.second⟩)
  if found.1 = 0 then none else some found

/-- The states that are read together. -/
structure Cells where
  literals : Cell
  distances : Cell
  repeats : Cell

/-- What carrying out sequences has come to. -/
structure Progress where
  output : ByteArray
  /-- How many literals were taken. -/
  taken : Nat
  recent : Recent

/-- Repeats bytes that lie some distance back. -/
def copyBack (distance : Nat) : Nat → ByteArray → ByteArray
  | 0, out => out
  | count + 1, out => copyBack distance count (out.push (out.get! (out.size - distance)))

/-- Carries out a sequence; it repeats nothing before `start`. -/
def Progress.step? (p : Progress) (literals : ByteArray) (start length distance count : Nat)
    (recent : Recent) : Option Progress :=
  if literals.size < p.taken + length then none
  else
    let output := p.output ++ literals.extract p.taken (p.taken + length)
    if output.size < start + distance then none
    else some ⟨copyBack distance count output, p.taken + length, recent⟩

/-- Reads the states after others. -/
def Tables.next? (t : Tables) (c : Cells) (b : Backward) : Option (Cells × Backward) := do
  let (literals, b) ← t.literals.next? c.literals b
  let (repeats, b) ← t.repeats.next? c.repeats b
  let (distances, b) ← t.distances.next? c.distances b
  pure (⟨literals, distances, repeats⟩, b)

/-- Reads sequences and carries them out; the bits come to their end with the last one. -/
def runSequences? (t : Tables) (literals : ByteArray) (start : Nat) :
    Nat → Cells → Backward → Progress → Option Progress
  | 0, _, _, p => some p
  | count + 1, c, b, p => do
    let (value, b) ← distances.value? c.distances b
    let (times, b) ← matchLengths.value? c.repeats b
    let (length, b) ← literalLengths.value? c.literals b
    let (distance, recent) ← p.recent.distance? value (length = 0)
    let p ← p.step? literals start length distance times recent
    if count = 0 then if b.left = 0 then some p else none
    else
      let (c, b) ← t.next? c b
      runSequences? t literals start count c b p

/-- What a block leaves to the next one. -/
structure Memory where
  code? : Option WordTable
  tables? : Option Tables
  recent : Recent

/-- What the first block finds. -/
def Memory.fresh : Memory := ⟨none, none, ⟨1, 4, 8⟩⟩

/-- Unpacks a block of at most `limit` literals behind output; it repeats nothing before
`start`. -/
def Memory.block? (m : Memory) (limit start : Nat) (data output : ByteArray) :
    Option (Memory × ByteArray) := do
  let literals ← readLiterals? m.code? limit data
  let data := data.extract literals.used data.size
  let (count, used) ← sequenceCount? data
  if count = 0 then
    if used < data.size then none
    else some ({ m with code? := literals.code? }, output ++ literals.bytes)
  else
    let data := data.extract used data.size
    let (tables, used) ← readTables? m.tables? data
    let b ← Backward.start? (data.extract used data.size)
    let (first, b) ← tables.literals.start? b
    let (second, b) ← tables.distances.start? b
    let (third, b) ← tables.repeats.start? b
    let p ← runSequences? tables literals.bytes start count ⟨first, second, third⟩ b
      ⟨output, 0, m.recent⟩
    let rest := literals.bytes.extract p.taken literals.bytes.size
    pure (⟨literals.code?, some tables, p.recent⟩, p.output ++ rest)

end ReviewMentor.Zip.Zstandard

import ReviewMentor.Zip.Stream
import ReviewMentor.Zip.Zstandard.Backward

/-!
# State tables

Symbols that are coded as states. A state stands for a symbol, and says how many bits to read to
find the state after it. Which states stand for a symbol follows from how frequent it is.
-/

namespace ReviewMentor.Zip.Zstandard

/-- A state: its symbol, and the states that may follow, told apart by some bits. -/
structure Cell where
  symbol : Nat
  bits : Nat
  base : Nat

/-- A table of states; there is a power of two of them. -/
structure StateTable where
  log : Nat
  cells : Array Cell

/-- How frequent a symbol is. -/
inductive Frequency where
  /-- So many states stand for it. -/
  | often (count : Nat)
  /-- Less than one state should stand for it; it gets one of the last ones. -/
  | seldom
deriving Inhabited

/-- How many states stand for a symbol. -/
def Frequency.states : Frequency → Nat
  | often count => count
  | seldom => 1

/-- How many states are left when the count stands for nothing more. -/
def noneLeft : Nat := 1

/-- Reads how many symbols without a state follow one. -/
def readSkip : Nat → Unpacking Nat
  | 0 => throw .unfinished
  | fuel + 1 => do
    let count ← Unpacking.bits 2
    if count = 3 then pure (3 + (← readSkip fuel)) else pure count

/-- Reads frequencies, the last one first, where `left` is one more than the states that are not
taken yet. There are at most `most` symbols. -/
def readFrequencies (most : Nat) : Nat → Nat → List Frequency → Unpacking (List Frequency)
  | 0, _, _ => throw .unfinished
  | fuel + 1, left, found => do
    let count := left.log2
    let spare := 2 ^ (count + 1) - 1 - left
    let low ← Unpacking.bits count
    let high ← if low < spare then pure 0 else Unpacking.bit
    let value := if high = 0 then low else low + 2 ^ count - spare
    let frequency := if value = 0 then .seldom else .often (value - 1)
    let left := left - frequency.states
    let found := frequency :: found
    if left ≤ noneLeft || most ≤ found.length then
      Unpacking.require (left = noneLeft)
      pure found
    else if value = 1 then
      let skip ← readSkip fuel
      Unpacking.require (found.length + skip < most)
      readFrequencies most fuel left (List.replicate skip (.often 0) ++ found)
    else readFrequencies most fuel left found

/-- The order in which states are given to symbols. -/
def stateOrder (size : Nat) : List Nat :=
  let step := size / 2 + size / 8 + 3
  (List.range size).map fun k => k * step % size

namespace StateTable

/-- The table with the given frequencies of symbols. -/
def ofFrequencies (log : Nat) (frequencies : List Frequency) : StateTable :=
  let size := 2 ^ log
  let indexed := frequencies.zipIdx
  let rare := indexed.filterMap fun (f, symbol) => match f with
    | .seldom => some symbol
    | .often _ => none
  let common := indexed.flatMap fun (f, symbol) => match f with
    | .seldom => []
    | .often count => List.replicate count symbol
  let top := size - rare.length
  let symbols := ((stateOrder size).filter (· < top)).zip common
  let symbols := symbols ++ (rare.zipIdx.map fun (symbol, k) => (size - 1 - k, symbol))
  let symbols := symbols.foldl (fun (a : Array Nat) (state, symbol) =>
    a.setIfInBounds state symbol) (Array.replicate size 0)
  let next := (frequencies.map Frequency.states).toArray
  let (cells, _) := symbols.foldl (fun (cells, next) symbol =>
    let number := next.getD symbol 1
    let bits := log - number.log2
    (cells.push (Cell.mk symbol bits ((number <<< bits) - size)), next.modify symbol (· + 1)))
    ((#[] : Array Cell), next)
  ⟨log, cells⟩

/-- The table with a single state. -/
def single (symbol : Nat) : StateTable := ⟨0, #[⟨symbol, 0, 0⟩]⟩

/-- Reads a table with at most `most` symbols and 2 ^ `mostLog` states; the table, and how many
bytes were read. -/
def read? (most mostLog : Nat) (data : ByteArray) : Option (StateTable × Nat) :=
  let reading : Unpacking StateTable := do
    let log := (← Unpacking.bits 4) + 5
    Unpacking.require (log ≤ mostLog)
    let frequencies ← readFrequencies most (8 * data.size + 1) (2 ^ log + 1) []
    pure (ofFrequencies log frequencies.reverse)
  match ExceptT.run reading (Stream.start data) with
  | (.ok table, s) => some (table, s.bytesRead)
  | (.error _, _) => none

/-- Reads the first state. -/
def start? (t : StateTable) (b : Backward) : Option (Cell × Backward) := do
  let (state, b) ← b.take? t.log
  pure (← t.cells[state]?, b)

/-- Reads the state after another one. -/
def next? (t : StateTable) (cell : Cell) (b : Backward) : Option (Cell × Backward) := do
  let (state, b) ← b.take? cell.bits
  pure (← t.cells[cell.base + state]?, b)

end StateTable

end ReviewMentor.Zip.Zstandard

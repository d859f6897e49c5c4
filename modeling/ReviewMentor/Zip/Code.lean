import ReviewMentor.Zip.Stream

/-!
# Prefix codes

Codes whose words are told apart by how they start. The lengths of the words determine the words:
shorter words come first, and words of one length follow the order of their symbols.
-/

namespace ReviewMentor.Zip

/-- A prefix code: how many words there are of each length, from one bit on, and the symbols in the
order of their words. -/
structure Code where
  counts : List Nat
  symbols : Array Nat

namespace Code

/-- The code with words of the given lengths, none of which is longer than `longest`. A length of
zero means that a symbol has no word. -/
def ofLengths (longest : Nat) (lengths : List Nat) : Code :=
  let indexed := lengths.zipIdx
  { counts := (List.range longest).map fun n => lengths.count (n + 1)
    symbols := ((List.range longest).flatMap fun n =>
      (indexed.filter fun l => l.1 = n + 1).map (·.2)).toArray }

/-- How many of the longest words are not used; none if there are more words than there can be. -/
def room? (c : Code) : Option Nat :=
  c.counts.foldl (fun (left? : Option Nat) count =>
    left?.bind fun left => if count ≤ 2 * left then some (2 * left - count) else none) (some 1)

/-- Reads a word, given the counts of the lengths that are left, the word so far, the first word of
its length and the place of its symbol. -/
def readFrom (symbols : Array Nat) (next : Unpacking Nat) :
    List Nat → Nat → Nat → Nat → Unpacking (Option Nat)
  | [], _, _, _ => pure none
  | count :: counts, word, first, index => do
    let bit ← next
    let word := word + bit
    if word < first + count then pure symbols[index + (word - first)]?
    else readFrom symbols next counts (2 * word) (2 * (first + count)) (index + count)

/-- Reads a word bit by bit; there is no symbol if the word is not used. -/
def read? (c : Code) (next : Unpacking Nat) : Unpacking (Option Nat) :=
  readFrom c.symbols next c.counts 0 0 0

end Code

end ReviewMentor.Zip
